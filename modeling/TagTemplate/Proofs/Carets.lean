import TagTemplate.Proofs.DiagnosticPlace
import TagTemplate.Proofs.Reading.Later

/-!
# Carets under the text at fault

A diagnostic shows the line of the error and below it a line with carets. Both begin with a gutter,
and the carets stand as many characters behind theirs as the error is from the beginning of its
line. The gutter of the line shown holds the line's number and grows with it beyond three columns,
the gutter of the carets is always the same; so the carets stand below the place of the error on the
first 999 lines, and to the left of it on every other (`compileWithin_points_below`).

There are as many carets as the span of the error has bytes. That is the number of characters to
underline if the text at fault lies on the line and has no character of several bytes, and only then
(`compileWithin_underlines`).
-/

namespace TagTemplate

open String (utf8Len)

/-! ## Characters and their bytes -/

/-- A text has no more characters than bytes. -/
theorem length_le_utf8Len (cs : List Char) : cs.length ≤ utf8Len cs := by
  induction cs with
  | nil => exact Nat.le_refl 0
  | cons c cs ih =>
    have hc := c.utf8Size_pos
    rw [List.length_cons, String.utf8Len_cons]
    omega

/-- A text has as many bytes as characters if each of them has one. -/
theorem utf8Len_eq_length_iff (cs : List Char) :
    utf8Len cs = cs.length ↔ ∀ c ∈ cs, c.utf8Size = 1 := by
  induction cs with
  | nil => simp
  | cons c cs ih =>
    have hc := c.utf8Size_pos
    have hcs := length_le_utf8Len cs
    rw [List.length_cons, String.utf8Len_cons, List.forall_mem_cons, ← ih]
    omega

/-- Line feeds are one byte each. -/
theorem utf8Len_lineFeeds (n : Nat) : utf8Len (List.replicate n '\n') = n := by
  have hbytes : ∀ c ∈ List.replicate n '\n', c.utf8Size = 1 := fun c hc => by
    rw [List.eq_of_mem_replicate hc]
    rfl
  rw [(utf8Len_eq_length_iff _).2 hbytes, List.length_replicate]

/-! ## The last lines of a diagnostic -/

/-- A text has one part more than separators. -/
theorem length_splitOn (a : Char) (cs : List Char) : (cs.splitOn a).length = cs.count a + 1 := by
  induction cs with
  | nil => rfl
  | cons c cs ih =>
    rw [List.splitOn_cons_eq_if_modifyHead]
    by_cases hc : c = a
    · subst hc
      rw [if_pos (beq_self_eq_true c), List.length_cons, ih, List.count_cons_self]
    · rw [if_neg (by simpa using hc), List.length_modifyHead, ih, List.count_cons_of_ne hc]

/-- Texts that are put together with a separator come apart again behind those that contain it
themselves. -/
theorem drop_splitOn_intercalate (a : Char) (ls : List (List Char)) {ms : List (List Char)}
    (hms : ∀ m ∈ ms, a ∉ m) (hne : ms ≠ []) :
    (([a].intercalate (ls ++ ms)).splitOn a).drop (ls.flatten.count a + ls.length) = ms := by
  induction ls with
  | nil => exact List.splitOn_intercalate a hms hne
  | cons l ls ih =>
    obtain ⟨k, ks, hks⟩ := List.exists_cons_of_ne_nil (List.append_ne_nil_of_right_ne_nil ls hne)
    have hcount : (l :: ls).flatten.count a + (l :: ls).length =
        (l.splitOn a).length + (ls.flatten.count a + ls.length) := by
      rw [length_splitOn, List.flatten_cons, List.count_append, List.length_cons]
      omega
    rw [hks] at ih
    rw [List.cons_append, hks, List.intercalate_cons_cons, List.append_assoc, List.singleton_append,
      List.splitOn_append_cons_self, hcount, ← List.drop_drop, List.drop_left, ih]

namespace CompileError

variable {source : String} {e : CompileError} {previous lead tail rest : List Char}

/-- The line breaks in the name of a template. -/
def nameBreaks (name : Option String) : Nat :=
  (name.getD "").toList.count '\n'

/-- The place is one line, but for the line breaks in the name. -/
theorem count_place (name : Option String) (l : Location) :
    (place name l).toList.count '\n' = nameBreaks name := by
  have hnumber : ∀ n : Nat, (Nat.toDigits 10 n).count '\n' = 0 := fun n =>
    List.count_eq_zero.2 (lineFeed_notMem_toDigits (by decide) n)
  cases name with
  | none => simp [place, nameBreaks, hnumber]
  | some name => simp [place, nameBreaks, hnumber]

/-- The lines of a diagnostic that show the source: the line, the carets and the advice. -/
def sourceLines (e : CompileError) (l : Location) (line : List Char) : List String :=
  [lineNumber l.line ++ " | " ++ .ofList line, "    | " ++ carets l e.span] ++
    (e.hint.map ("  = hint: " ++ ·)).toList

/-- The lines of a message are those of its head and then those that show the source. -/
theorem linesAt_eq (e : CompileError) (name : Option String) (l : Location) (line : List Char) :
    e.linesAt name l line =
      ["Error: " ++ e.reason.message, " --> " ++ place name l, "  |"] ++ e.sourceLines l line :=
  rfl

/-- Behind the lines of the message and of the place, whatever the name of the template, there are
the line shown, the line of the carets, and the advice if there is some. -/
theorem drop_splitOn_diagnostic (he : e.Raised)
    (h : LineAround source.toList e.offset previous lead tail rest) (name : Option String) :
    ((e.diagnostic source name).toList.splitOn '\n').drop (nameBreaks name + 3) =
      (e.sourceLines ⟨(previous ++ lead).count '\n' + 1, lead.length + 1⟩
        (lead ++ tail)).map String.toList := by
  rw [diagnostic, excerpt_eq h, linesAt_eq]
  generalize Location.mk _ _ = l
  have hline : ∀ cs ∈ (e.sourceLines l (lead ++ tail)).map String.toList, '\n' ∉ cs := by
    intro cs hcs
    obtain ⟨s, hs, rfl⟩ := List.mem_map.1 hcs
    have hmem : s ∈ e.linesAt none l (lead ++ tail) := by
      rw [linesAt_eq]
      exact List.mem_append_right _ hs
    have hnone : ∀ t, (none : Option String) = some t → OneLine t := fun t ht => by cases ht
    exact oneLine_of_mem_linesAt he hnone l h.line hmem
  have hmessage : ("Error: " ++ e.reason.message).toList.count '\n' = 0 :=
    List.count_eq_zero.2 (oneLine_append.2 ⟨by decide, e.reason.oneLine_message⟩)
  have hplace : (" --> " ++ place name l).toList.count '\n' = nameBreaks name := by
    rw [String.toList_append, List.count_append, count_place, List.count_eq_zero.2 (by decide),
      Nat.zero_add]
  have hgutter : "  |".toList.count '\n' = 0 := by decide
  have hbreaks : (["Error: " ++ e.reason.message, " --> " ++ place name l, "  |"].map
      String.toList).flatten.count '\n' = nameBreaks name := by
    simp only [List.map_cons, List.map_nil, List.flatten_cons, List.flatten_nil, List.count_append,
      List.count_nil, hmessage, hplace, hgutter, Nat.zero_add, Nat.add_zero]
  have hparts := drop_splitOn_intercalate '\n' (["Error: " ++ e.reason.message,
    " --> " ++ place name l, "  |"].map String.toList) hline (by simp [sourceLines])
  rw [hbreaks] at hparts
  rwa [String.toList_intercalate, List.map_append]

/-! ## Where the carets begin -/

/-- What stands in front of the text of the line shown. -/
def gutter (line : Nat) : List Char :=
  (lineNumber line ++ " | ").toList

/-- A line number takes up three columns at least. -/
theorem length_gutter (line : Nat) :
    (gutter line).length = line.repr.length + (3 - line.repr.length) + 3 := by
  rw [gutter, lineNumber, String.toList_append, String.toList_append, String.toList_ofList,
    List.length_append, List.length_append, List.length_replicate, String.length_toList,
    Nat.add_comm (3 - _)]
  rfl

/-- Only the line numbers from 1000 on take up more. -/
theorem length_repr_le_three_iff (line : Nat) : line.repr.length ≤ 3 ↔ line < 1000 := by
  rw [← String.length_toList, Nat.toList_repr]
  exact Nat.length_toDigits_le_iff (by decide) (by decide)

/-- The line of the carets has the gutter, the blanks up to the column, and the carets. -/
theorem toList_carets (l : Location) (span : Span) :
    ("    | " ++ carets l span).toList =
      "    | ".toList ++ List.replicate (l.column - 1) ' ' ++
        '^' :: List.replicate (max span.length 1 - 1) '^' := by
  rw [carets, ← List.replicate_succ, Nat.sub_add_cancel (Nat.le_max_right ..),
    String.toList_append, List.append_assoc]
  exact congrArg _ String.toList_ofList

/-- No caret stands in front of the column. -/
theorem caret_notMem (n : Nat) : '^' ∉ "    | ".toList ++ List.replicate n ' ' := by
  rw [List.mem_append, not_or]
  exact ⟨by decide, fun h => absurd (List.eq_of_mem_replicate h) (by decide)⟩

/-- There is a caret in the line of the carets. -/
theorem caret_mem (l : Location) (span : Span) : '^' ∈ ("    | " ++ carets l span).toList := by
  rw [toList_carets]
  exact List.mem_append_right _ List.mem_cons_self

/-- The first caret stands behind the gutter and the blanks up to the column. -/
theorem idxOf_caret (l : Location) (span : Span) :
    ("    | " ++ carets l span).toList.idxOf '^' = l.column - 1 + 6 := by
  rw [toList_carets, List.idxOf_append_of_notMem (caret_notMem _), List.idxOf_cons_self,
    List.length_append, List.length_replicate]
  exact Nat.add_comm 6 _

/-- There are as many carets as the span has bytes, and one at least. -/
theorem count_caret (l : Location) (span : Span) :
    ("    | " ++ carets l span).toList.count '^' = max span.length 1 := by
  rw [toList_carets, List.count_append, List.count_eq_zero.2 (caret_notMem _),
    ← List.replicate_succ, List.count_replicate_self, Nat.zero_add,
    Nat.sub_add_cancel (Nat.le_max_right ..)]

end CompileError

/-- The lines of the diagnostic of a compile error that show the source, whatever the name of the
template: around the place of the error there are the lines before its line, the text of its line in
front of it and behind it, and the rest, and the diagnostic shows the line and carets below it. -/
theorem compileWithin_sourceLines {limits : Reader.Limits} {source : String} {e : CompileError}
    (h : compileWithin limits source = .error e) (name : Option String) :
    ∃ previous lead tail rest advice, LineAround source.toList e.offset previous lead tail rest ∧
      let line := (previous ++ lead).count '\n' + 1
      ((e.diagnostic source name).toList.splitOn '\n').drop (CompileError.nameBreaks name + 3) =
        (CompileError.gutter line ++ (lead ++ tail)) ::
          ("    | " ++ CompileError.carets ⟨line, lead.length + 1⟩ e.span).toList :: advice := by
  obtain ⟨before, after, hsource, hoffset, hbreak⟩ := compileWithin_error_place h
  obtain ⟨previous, lead, tail, rest, -, hparts⟩ := exists_lineAround hbreak
  rw [← hsource, ← hoffset] at hparts
  have hlines := CompileError.drop_splitOn_diagnostic (raised_of_compileWithin h) hparts name
  have hshown : (CompileError.lineNumber ((previous ++ lead).count '\n' + 1) ++ " | " ++
      .ofList (lead ++ tail)).toList =
        CompileError.gutter ((previous ++ lead).count '\n' + 1) ++ (lead ++ tail) := by
    rw [String.toList_append, String.toList_ofList, CompileError.gutter]
  rw [CompileError.sourceLines, List.cons_append, List.map_cons, hshown] at hlines
  exact ⟨previous, lead, tail, rest, _, hparts, hlines⟩

/-- The carets of a diagnostic stand below the place of the error if its line is one of the first
999, and otherwise as many characters to the left as the line's number has digits beyond three.
Around the place there are the lines of the source before its line, the text of its line in front of
it and behind it, and the rest. The two lines of the diagnostic that follow those of the message and
of the place are the line shown, in which the text behind the place begins at the character `place`,
and the line of the carets, of which the first is at the character `caret`. -/
theorem compileWithin_points_below {limits : Reader.Limits} {source : String} {e : CompileError}
    (h : compileWithin limits source = .error e) (name : Option String) :
    ∃ previous lead tail rest shown pointer advice,
      LineAround source.toList e.offset previous lead tail rest ∧
      ((e.diagnostic source name).toList.splitOn '\n').drop (CompileError.nameBreaks name + 3) =
        shown :: pointer :: advice ∧
      let line := (previous ++ lead).count '\n' + 1
      let place := (CompileError.gutter line).length + lead.length
      let caret := pointer.idxOf '^'
      shown = CompileError.gutter line ++ (lead ++ tail) ∧ shown.drop place = tail ∧ '^' ∈ pointer ∧
        caret + (line.repr.length - 3) = place ∧ (caret = place ↔ line < 1000) := by
  obtain ⟨previous, lead, tail, rest, advice, hparts, hlines⟩ := compileWithin_sourceLines h name
  refine ⟨previous, lead, tail, rest, _, _, advice, hparts, hlines, ?_⟩
  intro line place caret
  have hplace : place = (CompileError.gutter line).length + lead.length := rfl
  have hcaret : caret = lead.length + 6 := CompileError.idxOf_caret _ e.span
  have hgutter := CompileError.length_gutter line
  have hdigits := CompileError.length_repr_le_three_iff line
  refine ⟨rfl, ?_, CompileError.caret_mem _ e.span, by omega, by omega⟩
  rw [← List.append_assoc]
  exact List.drop_left' List.length_append

/-- On the second line the first caret stands below the percent sign without a partner. -/
theorem compileWithin_points_below_second_line :
    compileWithin {} "é\n$f(%a" = .error (.unterminatedField 6) ∧
      ∃ previous lead tail rest shown pointer advice,
        LineAround "é\n$f(%a".toList 6 previous lead tail rest ∧
        (((CompileError.unterminatedField 6).diagnostic "é\n$f(%a" none).toList.splitOn
          '\n').drop 3 = shown :: pointer :: advice ∧
        shown.drop 9 = tail ∧ pointer.idxOf '^' = 9 := by
  have herror : compileWithin {} "é\n$f(%a" = .error (.unterminatedField 6) := rfl
  obtain ⟨previous, lead, tail, rest, shown, pointer, advice, hparts, hlines, hplace⟩ :=
    compileWithin_points_below herror none
  have hlocation : (⟨2, 4⟩ : Location) =
      ⟨(previous ++ lead).count '\n' + 1, lead.length + 1⟩ := hparts.location_eq
  obtain ⟨hline, hcolumn⟩ := Location.mk.inj hlocation
  have hlead : lead.length = 3 := (Nat.succ.inj hcolumn).symm
  have hgutter : (CompileError.gutter 2).length = 6 := by decide
  obtain ⟨-, hshown, -, -, hbelow⟩ := hplace
  rw [← hline, hgutter, hlead] at hshown hbelow
  exact ⟨herror, previous, lead, tail, rest, shown, pointer, advice, hparts, hlines, hshown,
    hbelow.2 (by decide)⟩

/-- A percent sign behind plain text has no partner. -/
theorem compile_append_percent {text : String} {maxDepth : Nat}
    (hplain : ∀ c ∈ text.toList, Reader.isEscapable c = false)
    (hsize : text.utf8ByteSize + 1 ≤ 2 ^ 32 - 1) :
    compile (text ++ "%") maxDepth = .error (.unterminatedField text.utf8ByteSize) := by
  have hspells : Piece.Spells (Piece.quoted text) text :=
    ⟨Piece.valid_quoted text, by rw [Piece.charsSeq_quoted, escape_eq_self hplain]⟩
  have hdepth : Piece.depthSeq (Piece.quoted text) ≤ maxDepth := by
    rw [Piece.depthSeq_quoted]
    exact Nat.zero_le maxDepth
  have hfits := (Piece.usageRoot_nodes_within 0 (Piece.quoted text)).mono
    (show _ ≤ 2 ^ 32 - 1 by rw [hspells.sizeSeq_eq]; omega)
  have htext : Reader.read { maxDepth } text = .ok _ :=
    Reader.read_complete ⟨hspells, hdepth, hfits⟩
  have hpercent : Reader.read { maxDepth } "%" = .error (.unterminatedField 0) := rfl
  have hboth := Reader.read_append_error htext hpercent hsize
  rw [CompileError.unterminatedField_move, Nat.zero_add] at hboth
  exact (compileWithin_eq_error_iff { maxDepth } _ _).2 hboth

/-- A percent sign behind line feeds is on the last line. -/
theorem lineAround_lineFeeds (n : Nat) :
    LineAround (List.replicate n '\n' ++ ['%']) n (List.replicate n '\n') [] ['%'] [] where
  source_eq := by simp
  offset_eq := by rw [List.append_nil, utf8Len_lineFeeds]
  previous := by
    cases n with
    | zero => exact .inl rfl
    | succ n => exact .inr ⟨List.replicate n '\n', List.replicate_succ'⟩
  line := by decide
  ends := .eof

/-- The gutter of line 1000 is wider than that of the carets, so these stand in front of the
character that they are to point at. -/
theorem points_left_of_place_line_1000 :
    let source := String.ofList (List.replicate 999 '\n') ++ "%"
    let shown := "1000 | %".toList
    let pointer := "    | ^".toList
    compile source = .error (.unterminatedField 999) ∧
      (((CompileError.unterminatedField 999).diagnostic source none).toList.splitOn '\n').drop 3 =
        [shown, pointer, "  = hint: write '\\%' for a literal percent sign".toList] ∧
      shown.idxOf '%' = 7 ∧ pointer.idxOf '^' = 6 := by
  intro source shown pointer
  have hbytes : (String.ofList (List.replicate 999 '\n')).utf8ByteSize = 999 := by
    rw [← String.utf8Len_toList, String.toList_ofList, utf8Len_lineFeeds]
  have hplain : ∀ c ∈ (String.ofList (List.replicate 999 '\n')).toList,
      Reader.isEscapable c = false := by
    intro c hc
    rw [String.toList_ofList] at hc
    rw [List.eq_of_mem_replicate hc]
    rfl
  have herror : compile source = .error (.unterminatedField 999) := by
    have h : compile source defaultMaxDepth = _ :=
      compile_append_percent hplain (by rw [hbytes]; decide)
    rwa [hbytes] at h
  have hsource : source.toList = List.replicate 999 '\n' ++ ['%'] := by
    rw [String.toList_append, String.toList_ofList]
    rfl
  have hparts := lineAround_lineFeeds 999
  rw [← hsource] at hparts
  have hlines := CompileError.drop_splitOn_diagnostic (e := .unterminatedField 999)
    (.unterminatedField 999) hparts none
  rw [List.append_nil, List.count_replicate_self] at hlines
  exact ⟨herror, hlines.trans (by decide), by decide, by decide⟩

/-! ## How many carets there are -/

namespace Span

/-- The characters of a text that begin inside the span, where the text itself begins at `pos`. -/
def charsOf (s : Span) (pos : Nat) : List Char → List Char
  | [] => []
  | c :: cs =>
    if s.start ≤ pos ∧ pos < s.stop then c :: s.charsOf (pos + c.utf8Size) cs
    else s.charsOf (pos + c.utf8Size) cs

/-- The characters of a text that begin inside a span are those of its parts. -/
theorem charsOf_append (s : Span) (pos : Nat) (cs ds : List Char) :
    s.charsOf pos (cs ++ ds) = s.charsOf pos cs ++ s.charsOf (pos + utf8Len cs) ds := by
  induction cs generalizing pos with
  | nil => rfl
  | cons c cs ih =>
    have hpos : pos + utf8Len (c :: cs) = pos + c.utf8Size + utf8Len cs := by
      rw [String.utf8Len_cons]
      omega
    rw [List.cons_append, charsOf, charsOf, ih, hpos]
    split <;> rfl

/-- A text in front of the span has no character in it. -/
theorem charsOf_of_le_start {s : Span} {pos : Nat} {cs : List Char}
    (h : pos + utf8Len cs ≤ s.start) : s.charsOf pos cs = [] := by
  induction cs generalizing pos with
  | nil => rfl
  | cons c cs ih =>
    have hc := c.utf8Size_pos
    rw [String.utf8Len_cons] at h
    rw [charsOf, if_neg (by omega), ih (by omega)]

/-- A text behind the span has no character in it. -/
theorem charsOf_of_stop_le {s : Span} {pos : Nat} (h : s.stop ≤ pos) (cs : List Char) :
    s.charsOf pos cs = [] := by
  induction cs generalizing pos with
  | nil => rfl
  | cons c cs ih => rw [charsOf, if_neg (by omega), ih (by omega)]

/-- A text inside the span has all its characters in it. -/
theorem charsOf_of_inside {s : Span} {pos : Nat} {cs : List Char} (hstart : s.start ≤ pos)
    (hstop : pos + utf8Len cs ≤ s.stop) : s.charsOf pos cs = cs := by
  induction cs generalizing pos with
  | nil => rfl
  | cons c cs ih =>
    have hc := c.utf8Size_pos
    rw [String.utf8Len_cons] at hstop
    rw [charsOf, if_pos ⟨hstart, by omega⟩, ih (by omega) (by omega)]

/-- No more characters begin inside a span than it has bytes. -/
theorem length_charsOf_le (s : Span) (pos : Nat) (cs : List Char) :
    (s.charsOf pos cs).length ≤ s.stop - max s.start pos := by
  induction cs generalizing pos with
  | nil => exact Nat.zero_le _
  | cons c cs ih =>
    have hc := c.utf8Size_pos
    have hcs := ih (pos + c.utf8Size)
    rw [charsOf]
    split
    · rw [List.length_cons]
      omega
    · omega

end Span

section
variable {source : String} {e : CompileError} {previous lead tail rest : List Char}

/-- A compile error is about the capacity, or it points at its cause. -/
theorem compileWithin_tooLarge_or_points {limits : Reader.Limits}
    (h : compileWithin limits source = .error e) :
    (∃ limit offset, e = .templateTooLarge limit offset) ∨
      e.PointsAtCause limits.maxDepth source := by
  by_cases hroomy : ∀ limit, e.reason ≠ .templateTooLarge limit
  · have hread := (compileWithin_eq_error_iff limits source e).1 h
    rcases Reader.read_eq_error hread with
      ⟨as, c, bs, st, hsource, hreading, -, herror⟩ | ⟨st, hreading, -, herror⟩
    · exact .inr (hreading.points_of_step_error herror hsource hroomy)
    · exact .inr (hreading.points_of_finish_error herror hroomy)
  · have hraised := raised_of_compileWithin h
    push Not at hroomy
    obtain ⟨limit, hreason⟩ := hroomy
    cases hraised with
    | templateTooLarge limit offset => exact .inl ⟨limit, offset, rfl⟩
    | unterminatedField | emptyField | invalidIdentifier | emptyCall | unterminatedName
    | expectedArgumentList | nestingTooDeep | unterminatedArguments | danglingEscape =>
      cases hreason

/-- The text that a span covers from the place on belongs to the line until it goes on with what
follows the line. -/
theorem LineAround.charsOf_eq {covered : List Char}
    (h : LineAround source.toList e.offset previous lead tail rest)
    (hcovers : e.span.Covers source covered) :
    ∃ beyond, covered = e.span.charsOf (utf8Len previous) (lead ++ tail) ++ beyond ∧
      beyond <+: rest ∧ (beyond = [] ↔ e.span.stop ≤ utf8Len (previous ++ lead ++ tail)) := by
  obtain ⟨before, after, hsource, hspan⟩ := hcovers
  have hstart : e.span.start = utf8Len (previous ++ lead) := h.offset_eq
  have hstop : e.span.stop = e.span.start + utf8Len covered := by rw [hspan]
  have hbefore : before = previous ++ lead := by
    have hboth := hsource.symm.trans h.source_eq
    rw [List.append_assoc, List.append_assoc (previous ++ lead)] at hboth
    exact Span.eq_of_utf8Len_eq hboth (by rw [← hstart, hspan])
  have hrest : covered ++ after = tail ++ rest := by
    have hboth := hsource.symm.trans h.source_eq
    rw [hbefore, List.append_assoc, List.append_assoc (previous ++ lead)] at hboth
    exact List.append_cancel_left hboth
  have hlead : e.span.charsOf (utf8Len previous) lead = [] :=
    Span.charsOf_of_le_start (by rw [hstart, String.utf8Len_append])
  rw [Span.charsOf_append, hlead, List.nil_append, ← String.utf8Len_append, ← hstart,
    String.utf8Len_append (previous ++ lead), ← hstart]
  rcases List.append_eq_append_iff.1 hrest with ⟨more, rfl, -⟩ | ⟨beyond, rfl, hbeyond⟩
  · have hmore : e.span.charsOf (e.span.start + utf8Len covered) more = [] :=
      Span.charsOf_of_stop_le hstop.le more
    rw [Span.charsOf_append, hmore, Span.charsOf_of_inside (Nat.le_refl _) hstop.ge,
      String.utf8Len_append]
    exact ⟨[], by simp, List.nil_prefix, by simp only [true_iff]; omega⟩
  · rw [String.utf8Len_append] at hstop
    rw [Span.charsOf_of_inside (Nat.le_refl _) (by omega), hstop]
    refine ⟨beyond, rfl, ⟨after, hbeyond.symm⟩, ?_⟩
    rw [← String.utf8Len_eq_zero]
    omega

/-- As many characters of the line begin inside the span as it has bytes, or one where there are
none, exactly if the span has one byte or covers characters of one byte on the line alone. -/
theorem LineAround.underlines_iff (h : LineAround source.toList e.offset previous lead tail rest)
    (hspan : e.span.length ≤ 1 ∨ ∃ covered, e.span.Covers source covered) :
    max e.span.length 1 = max (e.span.charsOf (utf8Len previous) (lead ++ tail)).length 1 ↔
      e.span.length ≤ 1 ∨
        (∀ c ∈ e.span.charsOf (utf8Len previous) (lead ++ tail), c.utf8Size = 1) ∧
          e.span.stop ≤ utf8Len (previous ++ lead ++ tail) := by
  by_cases hone : e.span.length ≤ 1
  · have hle := Span.length_charsOf_le e.span (utf8Len previous) (lead ++ tail)
    rw [Span.length] at hone ⊢
    exact iff_of_true (by omega) (.inl hone)
  obtain ⟨covered, hcovers⟩ := hspan.resolve_left hone
  obtain ⟨beyond, hcovered, -, hbeyond⟩ := h.charsOf_eq hcovers
  have hbytes : e.span.length = utf8Len covered := by
    obtain ⟨before, after, -, hspan⟩ := hcovers
    rw [hspan]
    exact Nat.add_sub_cancel_left ..
  rw [hcovered, String.utf8Len_append] at hbytes
  rw [← hbeyond, ← utf8Len_eq_length_iff, ← String.utf8Len_eq_zero]
  have hle := length_le_utf8Len (e.span.charsOf (utf8Len previous) (lead ++ tail))
  omega

end

/-! ## The text at fault -/

/-- A character of a name has one byte and ends no line. -/
theorem oneByte_of_isNameChar {c : Char} (h : Reader.isNameChar c = true) :
    c.utf8Size = 1 ∧ c ≠ '\n' ∧ c ≠ '\r' := by
  have hval : c.val ≤ 0x7f := by
    rcases Bool.or_eq_true_iff.1 h with h | h
    · rcases Bool.or_eq_true_iff.1 h with h | hdigit
      · rcases Bool.or_eq_true_iff.1 h with hupper | hlower
        · exact UInt32.le_trans (of_decide_eq_true hupper).2 (by decide)
        · exact UInt32.le_trans (of_decide_eq_true (Bool.and_eq_true_iff.1 hlower).2) (by decide)
      · exact UInt32.le_trans (of_decide_eq_true (Bool.and_eq_true_iff.1 hdigit).2) (by decide)
    · obtain rfl := beq_iff_eq.1 h
      decide
  refine ⟨Char.utf8Size_eq_one_iff.2 hval, ?_, ?_⟩ <;> rintro rfl <;> exact absurd h (by decide)

/-- What is blamed is made up of signs of the language and names, but for calls that are open at the
end of the source and characters that stand in a name where they may not. -/
theorem CompileReason.Blames.oneByte {maxDepth : Nat} {around : List CallSite}
    {before lead covered after : List Char} {r : CompileReason}
    (h : r.Blames maxDepth around before lead covered after) (hcall : r ≠ .unterminatedCall)
    (hchar : ∀ c, r ≠ .invalidIdentifier c) :
    ∀ c ∈ covered, c.utf8Size = 1 ∧ c ≠ '\n' ∧ c ≠ '\r' := by
  have hname : ∀ name : String, IsName name → ∀ c ∈ name.toList,
      c.utf8Size = 1 ∧ c ≠ '\n' ∧ c ≠ '\r' :=
    fun name hname c hc => oneByte_of_isNameChar (hname.2 c hc)
  have hpercent : '%'.utf8Size = 1 ∧ '%' ≠ '\n' ∧ '%' ≠ '\r' := by decide
  have hdollar : '$'.utf8Size = 1 ∧ '$' ≠ '\n' ∧ '$' ≠ '\r' := by decide
  cases r with
  | unterminatedField =>
    obtain ⟨-, rfl, -⟩ := h
    exact List.forall_mem_singleton.2 hpercent
  | danglingEscape =>
    obtain ⟨-, rfl, -⟩ := h
    exact List.forall_mem_singleton.2 (by decide)
  | unterminatedCall => exact absurd rfl hcall
  | invalidIdentifier c => exact absurd rfl (hchar c)
  | emptyIdentifier =>
    obtain ⟨-, rfl | ⟨rfl, -⟩⟩ := h
    · exact List.forall_mem_cons.2 ⟨hpercent, List.forall_mem_singleton.2 hpercent⟩
    · exact List.forall_mem_singleton.2 hdollar
  | expectedArgumentList =>
    obtain ⟨-, name, c, rest, hisName, rfl, -⟩ := h
    exact List.forall_mem_cons.2 ⟨hdollar, hname name hisName⟩
  | nestingTooDeep limit =>
    obtain ⟨-, -, -, name, hisName, rfl⟩ := h
    refine List.forall_mem_cons.2 ⟨hdollar, List.forall_mem_append.2 ⟨hname name hisName, ?_⟩⟩
    exact List.forall_mem_singleton.2 (by decide)
  | templateTooLarge limit => exact h.elim

/-- What follows a line begins with the end of the line. -/
theorem EndsLine.head_eq {line rest : List Char} (h : EndsLine line rest) :
    ∀ c ∈ rest.head?, c = '\n' ∨ c = '\r' := by
  cases h with
  | eof => nofun
  | lf h => exact fun c hc => .inl (Option.some.inj hc).symm
  | crlf => exact fun c hc => .inr (Option.some.inj hc).symm

/-- Text without the end of a line is on the line. -/
theorem LineAround.stop_le {source : String} {e : CompileError}
    {previous lead tail rest covered : List Char}
    (h : LineAround source.toList e.offset previous lead tail rest)
    (hcovers : e.span.Covers source covered) (hcovered : ∀ c ∈ covered, c ≠ '\n' ∧ c ≠ '\r') :
    e.span.stop ≤ utf8Len (previous ++ lead ++ tail) := by
  obtain ⟨beyond, rfl, ⟨more, hmore⟩, hbeyond⟩ := h.charsOf_eq hcovers
  refine hbeyond.1 ?_
  cases beyond with
  | nil => rfl
  | cons b bs =>
    obtain ⟨hlf, hcr⟩ := hcovered b (List.mem_append_right _ List.mem_cons_self)
    have hb : b ∈ rest.head? := by
      rw [← hmore]
      rfl
    exact absurd (h.ends.head_eq b hb) (not_or.2 ⟨hlf, hcr⟩)

/-- The carets of a diagnostic underline the text at fault, a caret for a character, exactly if the
span of the error has one byte or covers text that is on the line shown and has only characters of
one byte. There are as many carets as the span has bytes, and one for an empty span. They are right
for every error but a call that the end of the source leaves open and a character of several bytes
in the name of a field. -/
theorem compileWithin_underlines {limits : Reader.Limits} {source : String} {e : CompileError}
    (h : compileWithin limits source = .error e) (name : Option String) :
    ∃ previous lead tail rest shown pointer advice,
      LineAround source.toList e.offset previous lead tail rest ∧
      ((e.diagnostic source name).toList.splitOn '\n').drop (CompileError.nameBreaks name + 3) =
        shown :: pointer :: advice ∧
      let line := (previous ++ lead).count '\n' + 1
      let underlined := e.span.charsOf (utf8Len previous) (lead ++ tail)
      let carets := pointer.count '^'
      shown = CompileError.gutter line ++ (lead ++ tail) ∧ carets = max e.span.length 1 ∧
        (carets = max underlined.length 1 ↔
          e.span.length ≤ 1 ∨ (∀ c ∈ underlined, c.utf8Size = 1) ∧
            e.span.stop ≤ utf8Len (previous ++ lead ++ tail)) ∧
        (e.reason ≠ .unterminatedCall →
          (∀ c, e.reason = .invalidIdentifier c → c.utf8Size = 1) →
          carets = max underlined.length 1) := by
  obtain ⟨previous, lead, tail, rest, advice, hparts, hlines⟩ := compileWithin_sourceLines h name
  refine ⟨previous, lead, tail, rest, _, _, advice, hparts, hlines, ?_⟩
  intro line underlined carets
  have hcount : carets = max e.span.length 1 := CompileError.count_caret _ e.span
  rcases compileWithin_tooLarge_or_points h with ⟨limit, offset, rfl⟩ | hpoints
  · have hone : (CompileError.templateTooLarge limit offset).span.length ≤ 1 := by
      rw [CompileError.templateTooLarge, Span.single, Span.length, Nat.add_sub_cancel_left]
    have hiff := hparts.underlines_iff (.inl hone)
    rw [← hcount] at hiff
    exact ⟨rfl, hcount, hiff, fun _ _ => hiff.2 (.inl hone)⟩
  obtain ⟨around, before, lead', covered, after, hsource, hspan, -, hblames⟩ := hpoints
  have hcovers : e.span.Covers source covered := ⟨before ++ lead', after, hsource, hspan⟩
  have hiff := hparts.underlines_iff (.inr ⟨covered, hcovers⟩)
  rw [← hcount] at hiff
  refine ⟨rfl, hcount, hiff, fun hcall hchar => hiff.2 ?_⟩
  by_cases hname : ∃ c, e.reason = .invalidIdentifier c
  · obtain ⟨c, hc⟩ := hname
    rw [hc] at hblames
    obtain ⟨-, rfl, -⟩ := hblames
    have hsize : utf8Len [c] = 1 := by
      rw [String.utf8Len_cons, String.utf8Len_nil, hchar c hc]
    rw [hspan, Span.length, hsize, Nat.add_sub_cancel_left]
    exact .inl (Nat.le_refl 1)
  · have hbytes := hblames.oneByte hcall fun c hc => hname ⟨c, hc⟩
    obtain ⟨beyond, hcovered, -⟩ := hparts.charsOf_eq hcovers
    refine .inr ⟨fun c hc => (hbytes c ?_).1, hparts.stop_le hcovers fun c hc => (hbytes c hc).2⟩
    rw [hcovered]
    exact List.mem_append_left _ hc

/-- A name with a space in it, on a line after another. -/
theorem compileWithin_underlines_space :
    compileWithin {} "é\n%a b%" = .error (.invalidIdentifier ' ' 5) ∧ ' '.utf8Size = 1 ∧
      ∃ previous lead tail rest shown pointer advice,
        LineAround "é\n%a b%".toList 5 previous lead tail rest ∧
        (((CompileError.invalidIdentifier ' ' 5).diagnostic "é\n%a b%" none).toList.splitOn
          '\n').drop 3 = shown :: pointer :: advice ∧
        pointer.count '^' = 1 := by
  have herror : compileWithin {} "é\n%a b%" = .error (.invalidIdentifier ' ' 5) := rfl
  obtain ⟨previous, lead, tail, rest, shown, pointer, advice, hparts, hlines, -, hcount, -⟩ :=
    compileWithin_underlines herror none
  exact ⟨herror, rfl, previous, lead, tail, rest, shown, pointer, advice, hparts, hlines, hcount⟩

/-- A character of two bytes gets two carets, and a call that the source leaves open on a later line
gets one for each byte up to the end of the source. -/
theorem carets_count_bytes :
    compile "%é%" = .error (.invalidIdentifier 'é' 1) ∧
      ((CompileError.invalidIdentifier 'é' 1).excerpt "%é%" none).drop 3 =
        ["  1 | %é%", "    |  ^^",
          "  = hint: field names may only contain letters, digits and '_'"] ∧
      "    |  ^^".toList.count '^' = 2 ∧ Span.charsOf ⟨1, 3⟩ 0 "%é%".toList = ['é'] ∧
      compile "$f(\nab" = .error (.unterminatedArguments 0 6) ∧
      ((CompileError.unterminatedArguments 0 6).excerpt "$f(\nab" none).drop 3 =
        ["  1 | $f(", "    | ^^^^^^", "  = hint: close the argument list with ')'"] ∧
      "    | ^^^^^^".toList.count '^' = 6 ∧
      Span.charsOf ⟨0, 6⟩ 0 "$f(".toList = ['$', 'f', '('] := by
  exact ⟨rfl, by decide, by decide, by decide, rfl, by decide, by decide, by decide⟩

end TagTemplate
