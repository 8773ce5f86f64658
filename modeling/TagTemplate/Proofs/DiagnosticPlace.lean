import TagTemplate.Proofs.ErrorPlaces
import TagTemplate.Proofs.SourceLines

/-!
# Diagnostics show the place of the error

Every compile error begins between two characters of its source, and never inside a line break
(`compileWithin_error_place`): a carriage return that spoils the name of a field is blamed itself,
so the line feed after it is not. So there are parts of the source around the error, and the
diagnostic is made up of them, line by line (`compileWithin_shows_place`).
-/

namespace TagTemplate

open String (utf8Len)

/-! ## The places of errors -/

section
variable {source : String} {e : CompileError}

/-- The error begins between two characters of the source, not inside a line break. -/
def CompileError.WellPlaced (source : String) (e : CompileError) : Prop :=
  ∃ before after, source.toList = before ++ after ∧ e.offset = utf8Len before ∧
    ¬ SplitsBreak before after

/-- No construct but a spoilt name is blamed from a line feed on. -/
theorem CompileReason.Blames.not_splitsBreak {maxDepth : Nat} {around : List CallSite}
    {before lead covered after : List Char} {r : CompileReason}
    (h : r.Blames maxDepth around before lead covered after) :
    ¬ SplitsBreak (before ++ lead) (covered ++ after) := by
  have hpercent : '%' ≠ '\n' := by decide
  have hdollar : '$' ≠ '\n' := by decide
  cases r with
  | unterminatedField =>
    obtain ⟨-, rfl, -⟩ := h
    exact not_splitsBreak_cons hpercent _ _
  | unterminatedCall =>
    obtain ⟨-, -, name, -, rfl | ⟨rest, rfl, -⟩⟩ := h
    · exact not_splitsBreak_cons hdollar _ _
    · exact not_splitsBreak_cons hdollar _ _
  | expectedArgumentList =>
    obtain ⟨-, name, c, rest, -, rfl, -⟩ := h
    exact not_splitsBreak_cons hdollar _ _
  | emptyIdentifier =>
    obtain ⟨-, rfl | ⟨rfl, -⟩⟩ := h
    · exact not_splitsBreak_cons hpercent _ _
    · exact not_splitsBreak_cons hdollar _ _
  | invalidIdentifier c =>
    -- the character may be a line feed, but a name does not end with a carriage return
    obtain ⟨⟨name, rfl, hname⟩, -⟩ := h
    rcases List.eq_nil_or_concat name with rfl | ⟨cs, d, rfl⟩
    · exact not_splitsBreak_concat (by decide) _ _
    · rw [List.concat_eq_append, ← List.cons_append, ← List.append_assoc]
      refine not_splitsBreak_concat (fun hd => ?_) _ _
      have hchar := hname d (by simp)
      rw [hd] at hchar
      exact absurd hchar (by decide)
  | danglingEscape =>
    obtain ⟨-, rfl, -⟩ := h
    exact not_splitsBreak_cons (by decide) _ _
  | nestingTooDeep limit =>
    obtain ⟨-, -, -, name, -, rfl⟩ := h
    exact not_splitsBreak_cons hdollar _ _
  | templateTooLarge limit => exact h.elim

/-- An error that points at its cause begins there. -/
theorem CompileError.PointsAtCause.wellPlaced {maxDepth : Nat}
    (h : e.PointsAtCause maxDepth source) : e.WellPlaced source := by
  obtain ⟨around, before, lead, covered, after, hsource, hspan, -, hblames⟩ := h
  refine ⟨before ++ lead, covered ++ after, ?_, ?_, hblames.not_splitsBreak⟩
  · rw [hsource, List.append_assoc _ covered]
  · rw [CompileError.offset, hspan]

end

namespace Reader

variable {limits : Limits} {st : State} {source : String} {e : CompileError}

/-- The offset of the reader is the length of what it has read. -/
theorem Reading.pos_eq {cs : List Char} (h : Reading limits cs st) : st.pos = utf8Len cs := by
  have hbackslash : utf8Len ['\\'] = 1 := rfl
  cases h with
  | text h => exact h.pos_eq
  | escape mode h pos =>
    rw [pos, String.utf8Len_append, hbackslash, ← h.pos_eq]
  | fieldName mode h start_eq chars pos | callName mode h start_eq chars pos =>
    rw [pos, start_eq, String.utf8Len_append, Piece.utf8Len_append_charsSeq, utf8Len_cons_name rfl]
  | brokenField mode h start_eq chars offset_eq not_name rest_ne pos =>
    rw [pos, offset_eq, start_eq, String.utf8Len_append, Piece.utf8Len_append_charsSeq,
      ← List.cons_append, String.utf8Len_append, utf8Len_cons_name rfl, Nat.add_assoc]

/-- A template that outgrows its capacity does so in front of a character that ends something, or
behind it. -/
theorem wellPlaced_of_tooLarge {cs rest : List Char} {c : Char} {limit pos : Nat}
    (hc : c ∈ ['%', '$', ',', ')']) (hpos : pos ∈ [utf8Len cs, utf8Len cs + c.utf8Size])
    (hsource : source.toList = cs ++ c :: rest) :
    (CompileError.templateTooLarge limit pos).WellPlaced source := by
  have hlf : c ≠ '\n' := fun h => absurd (h ▸ hc) (by decide)
  have hcr : c ≠ '\r' := fun h => absurd (h ▸ hc) (by decide)
  rw [List.mem_cons, List.mem_singleton] at hpos
  rcases hpos with rfl | rfl
  · exact ⟨cs, c :: rest, hsource, rfl, not_splitsBreak_cons hlf _ _⟩
  · refine ⟨cs ++ [c], rest, by rw [hsource, List.append_cons], ?_, not_splitsBreak_concat hcr _ _⟩
    rw [String.utf8Len_append, String.utf8Len_cons, String.utf8Len_nil, Nat.zero_add]
    rfl

/-- An error at a character is well placed. -/
theorem Reading.wellPlaced_of_step_error {cs rest : List Char} {c : Char} (h : Reading limits cs st)
    (herror : st.step limits c = .error e) (hsource : source.toList = cs ++ c :: rest) :
    e.WellPlaced source := by
  by_cases hroomy : ∀ limit, e.reason ≠ .templateTooLarge limit
  · exact (h.points_of_step_error herror hsource hroomy).wellPlaced
  -- of what the reader raises at a character, only two kinds are for want of room
  have hpos := h.pos_eq
  unfold State.step at herror
  split at herror
  · obtain ⟨hc, limit, pos, hpos', rfl⟩ := State.stepText_error herror
    rw [hpos] at hpos'
    exact wellPlaced_of_tooLarge hc hpos' hsource
  · cases herror
  · obtain ⟨rfl, ⟨-, rfl⟩ | ⟨limit, rfl⟩⟩ := State.stepFieldName_error herror
    · exact absurd (fun _ => CompileReason.noConfusion) hroomy
    · rw [hpos]
      exact wellPlaced_of_tooLarge (by decide) (by simp) hsource
  · split at herror
    · cases herror
      exact absurd (fun _ => CompileReason.noConfusion) hroomy
    · cases herror
  · obtain ⟨-, ⟨-, rfl⟩ | ⟨-, -, rfl⟩ | ⟨-, -, -, rfl⟩⟩ := State.stepCallName_error herror <;>
      exact absurd (fun _ => CompileReason.noConfusion) hroomy

/-- An error at the end of the source is well placed. -/
theorem Reading.wellPlaced_of_finish_error (h : Reading limits source.toList st)
    (herror : st.finish limits = .error e) : e.WellPlaced source := by
  by_cases hroomy : ∀ limit, e.reason ≠ .templateTooLarge limit
  · exact (h.points_of_finish_error herror hroomy).wellPlaced
  have hmode : st.mode = .text := by
    by_contra hmode
    refine hroomy fun limit hreason => ?_
    unfold State.finish at herror
    split at herror
    · next htext => exact hmode htext
    · cases herror
      cases hreason
    · cases herror
      cases hreason
    · cases herror
      cases hreason
    · split at herror <;> cases herror <;> cases hreason
  rcases State.finish_text_error hmode herror with ⟨frame, frames, -, rfl⟩ | ⟨limit, rfl⟩
  · exact absurd (fun _ => CompileReason.noConfusion) hroomy
  · refine ⟨source.toList, [], (List.append_nil _).symm, h.pos_eq, ?_⟩
    rintro ⟨bs, as, -, has⟩
    cases has

end Reader

/-- Every compile error begins between two characters of the source, and not inside a line break. -/
theorem compileWithin_error_place {limits : Reader.Limits} {source : String} {e : CompileError}
    (h : compileWithin limits source = .error e) : e.WellPlaced source := by
  have hread := (compileWithin_eq_error_iff limits source e).1 h
  rcases Reader.read_eq_error hread with
    ⟨as, c, bs, st, hsource, hreading, -, herror⟩ | ⟨st, hreading, -, herror⟩
  · exact hreading.wellPlaced_of_step_error herror hsource
  · exact hreading.wellPlaced_of_finish_error herror

/-! ## Texts of one line -/

/-- The text contains no line feed. -/
def OneLine (s : String) : Prop :=
  '\n' ∉ s.toList

/-- Whether a text is one line can be computed. -/
instance (s : String) : Decidable (OneLine s) :=
  inferInstanceAs (Decidable (¬ '\n' ∈ s.toList))

/-- A text is one line if and only if its parts are. -/
theorem oneLine_append {s t : String} : OneLine (s ++ t) ↔ OneLine s ∧ OneLine t := by
  rw [OneLine, String.toList_append, List.mem_append, not_or]
  rfl

/-- A text of characters is one line if there is no line feed among them. -/
theorem oneLine_ofList {cs : List Char} : OneLine (.ofList cs) ↔ '\n' ∉ cs := by
  rw [OneLine, String.toList_ofList]

/-- No digit of a number is a line feed. -/
theorem lineFeed_notMem_toDigits {base : Nat} (hbase : 1 < base) (n : Nat) :
    '\n' ∉ Nat.toDigits base n := by
  have hdigit : ∀ d : Nat, '\n' ≠ d.digitChar := fun d => (Nat.digitChar_ne '\n' rfl).symm
  induction n using Nat.strongRecOn with
  | _ n ih =>
    rcases Nat.lt_or_ge n base with hlt | hle
    · rw [Nat.toDigits_of_lt_base hlt, List.mem_singleton]
      exact hdigit n
    · rw [Nat.toDigits_of_base_le hbase hle, List.mem_append, List.mem_singleton, not_or]
      have hpos : 0 < n := Nat.lt_of_lt_of_le (Nat.zero_lt_of_lt hbase) hle
      exact ⟨ih _ (Nat.div_lt_self hpos hbase), hdigit _⟩

/-- A number is written in one line. -/
theorem oneLine_repr (n : Nat) : OneLine n.repr := by
  rw [OneLine, Nat.toList_repr]
  exact lineFeed_notMem_toDigits (by decide) n

/-- A quotation is one line, whatever it quotes. -/
theorem lineFeed_notMem_quoteChar (mark c : Char) : '\n' ∉ Text.quoteChar mark c := by
  unfold Text.quoteChar
  split
  · decide
  split
  · decide
  split
  · decide
  split
  · decide
  · next hc =>
    split
    · decide
    split
    · simpa using Ne.symm hc
    split
    · have hdigits := lineFeed_notMem_toDigits (show 1 < 16 by decide) c.toNat
      simpa [Text.codeEscape, Text.hexDigits] using hdigits
    · simpa using Ne.symm hc

/-- A quoted character is written in one line. -/
theorem oneLine_quotedChar (c : Char) : OneLine (Text.quotedChar c) := by
  have hquote := lineFeed_notMem_quoteChar '\'' c
  rw [Text.quotedChar, oneLine_ofList]
  simpa using hquote

/-- A reason is one line, also if a line feed is to blame. -/
theorem CompileReason.oneLine_message (r : CompileReason) : OneLine r.message := by
  cases r with
  | unterminatedField | unterminatedCall | expectedArgumentList | emptyIdentifier
  | danglingEscape => decide
  | invalidIdentifier c =>
    exact oneLine_append.2 ⟨oneLine_append.2 ⟨by decide, oneLine_quotedChar c⟩, by decide⟩
  | nestingTooDeep limit | templateTooLarge limit =>
    exact oneLine_append.2 ⟨oneLine_append.2 ⟨by decide, oneLine_repr limit⟩, by decide⟩

/-- The errors that the reader raises. -/
inductive CompileError.Raised : CompileError → Prop
  | unterminatedField (start : Nat) : Raised (.unterminatedField start)
  | emptyField (start : Nat) : Raised (.emptyField start)
  | invalidIdentifier (c : Char) (offset : Nat) : Raised (.invalidIdentifier c offset)
  | emptyCall (start : Nat) : Raised (.emptyCall start)
  | unterminatedName (start stop : Nat) : Raised (.unterminatedName start stop)
  | expectedArgumentList (start stop : Nat) : Raised (.expectedArgumentList start stop)
  | nestingTooDeep (limit start stop : Nat) : Raised (.nestingTooDeep limit start stop)
  | unterminatedArguments (start stop : Nat) : Raised (.unterminatedArguments start stop)
  | danglingEscape (start : Nat) : Raised (.danglingEscape start)
  | templateTooLarge (limit offset : Nat) : Raised (.templateTooLarge limit offset)

/-- All advice is one line. -/
theorem CompileError.Raised.oneLine_hint {e : CompileError} (h : e.Raised) {hint : String}
    (hhint : e.hint = some hint) : OneLine hint := by
  cases h <;> cases hhint <;> decide

namespace Reader

variable {limits : Limits} {st : State} {c : Char} {e : CompileError}

/-- An error in a step is one that the reader raises. -/
theorem State.raised_of_step_error (h : st.step limits c = .error e) : e.Raised := by
  unfold step at h
  split at h
  · obtain ⟨-, limit, pos, -, rfl⟩ := State.stepText_error h
    exact .templateTooLarge limit pos
  · cases h
  · obtain ⟨-, ⟨-, rfl⟩ | ⟨limit, rfl⟩⟩ := State.stepFieldName_error h
    · exact .emptyField _
    · exact .templateTooLarge limit _
  · split at h
    · cases h
      exact .invalidIdentifier _ _
    · cases h
  · obtain ⟨-, ⟨-, rfl⟩ | ⟨-, -, rfl⟩ | ⟨-, -, -, rfl⟩⟩ := State.stepCallName_error h
    · exact .emptyCall _
    · exact .expectedArgumentList _ _
    · exact .nestingTooDeep _ _ _

/-- An error at the end is one that the reader raises. -/
theorem State.raised_of_finish_error (h : st.finish limits = .error e) : e.Raised := by
  cases hmode : st.mode with
  | text =>
    rcases State.finish_text_error hmode h with ⟨frame, frames, -, rfl⟩ | ⟨limit, rfl⟩
    · exact .unterminatedArguments _ _
    · exact .templateTooLarge limit _
  | escape start =>
    rw [finish, hmode] at h
    cases h
    exact .danglingEscape start
  | fieldName start name =>
    rw [finish, hmode] at h
    cases h
    exact .unterminatedField start
  | brokenField start offender offset =>
    rw [finish, hmode] at h
    cases h
    exact .unterminatedField start
  | callName start name =>
    rw [finish, hmode] at h
    cases h
    split
    · exact .emptyCall start
    · exact .unterminatedName start _

end Reader

/-- An error of a source is one that the reader raises. -/
theorem raised_of_compileWithin {limits : Reader.Limits} {source : String} {e : CompileError}
    (h : compileWithin limits source = .error e) : e.Raised := by
  have hread := (compileWithin_eq_error_iff limits source e).1 h
  rcases Reader.read_eq_error hread with
    ⟨as, c, bs, st, -, -, -, herror⟩ | ⟨st, -, -, herror⟩
  · exact Reader.State.raised_of_step_error herror
  · exact Reader.State.raised_of_finish_error herror

/-! ## The lines of a diagnostic -/

namespace CompileError

variable {source : String} {e : CompileError} {previous lead tail rest : List Char}

/-- The lines of a diagnostic, for a location and the text of its line. -/
def linesAt (e : CompileError) (name : Option String) (l : Location) (line : List Char) :
    List String :=
  ["Error: " ++ e.reason.message,
    " --> " ++ place name l,
    "  |",
    lineNumber l.line ++ " | " ++ .ofList line,
    "    | " ++ carets l e.span] ++
    (e.hint.map ("  = hint: " ++ ·)).toList

/-- A diagnostic is made up of the parts around the error. -/
theorem excerpt_eq (h : LineAround source.toList e.offset previous lead tail rest)
    (name : Option String) :
    e.excerpt source name =
      e.linesAt name ⟨(previous ++ lead).count '\n' + 1, lead.length + 1⟩ (lead ++ tail) := by
  rw [excerpt, h.location_eq, h.sourceLine_eq]
  rfl

/-- A message has five lines, and a sixth if there is advice. -/
theorem length_linesAt (e : CompileError) (name : Option String) (l : Location)
    (line : List Char) : (e.linesAt name l line).length = if e.hint.isSome then 6 else 5 := by
  cases hhint : e.hint with
  | none => simp [linesAt, hhint]
  | some hint => simp [linesAt, hhint]

/-- The place is written in one line if the name of the template is. -/
theorem oneLine_place {name : Option String} (hname : ∀ s, name = some s → OneLine s)
    (l : Location) : OneLine (place name l) := by
  unfold place
  refine oneLine_append.2 ⟨oneLine_append.2 ⟨oneLine_append.2 ⟨?_, oneLine_repr _⟩, by decide⟩,
    oneLine_repr _⟩
  split
  · next s => exact oneLine_append.2 ⟨hname s rfl, by decide⟩
  · decide

/-- The number of a line is written in one line. -/
theorem oneLine_lineNumber (n : Nat) : OneLine (lineNumber n) := by
  refine oneLine_append.2 ⟨oneLine_ofList.2 fun hmem => ?_, oneLine_repr n⟩
  exact absurd (List.eq_of_mem_replicate hmem) (by decide)

/-- The carets are written in one line. -/
theorem oneLine_carets (l : Location) (span : Span) : OneLine (carets l span) := by
  refine oneLine_ofList.2 fun hmem => ?_
  rcases List.mem_append.1 hmem with hmem | hmem
  · exact absurd (List.eq_of_mem_replicate hmem) (by decide)
  · exact absurd (List.eq_of_mem_replicate hmem) (by decide)

/-- Each line of a diagnostic is one line. -/
theorem oneLine_of_mem_linesAt (he : e.Raised) {name : Option String}
    (hname : ∀ s, name = some s → OneLine s) (l : Location) {line : List Char}
    (hline : '\n' ∉ line) {s : String} (hs : s ∈ e.linesAt name l line) : OneLine s := by
  rcases List.mem_append.1 hs with hs | hs
  · simp only [List.mem_cons, List.not_mem_nil, or_false] at hs
    rcases hs with rfl | rfl | rfl | rfl | rfl
    · exact oneLine_append.2 ⟨by decide, e.reason.oneLine_message⟩
    · exact oneLine_append.2 ⟨by decide, oneLine_place hname l⟩
    · decide
    · exact oneLine_append.2 ⟨oneLine_append.2 ⟨oneLine_lineNumber _, by decide⟩,
        oneLine_ofList.2 hline⟩
    · exact oneLine_append.2 ⟨by decide, oneLine_carets l e.span⟩
  · rw [Option.mem_toList, Option.map_eq_some_iff] at hs
    obtain ⟨hint, hhint, rfl⟩ := hs
    exact oneLine_append.2 ⟨by decide, he.oneLine_hint hhint⟩

/-- Split at its line feeds, a diagnostic comes apart into its lines. -/
theorem splitOn_diagnostic {name : Option String}
    (h : ∀ s ∈ e.excerpt source name, OneLine s) :
    (e.diagnostic source name).toList.splitOn '\n' =
      (e.excerpt source name).map String.toList := by
  rw [diagnostic, String.toList_intercalate]
  refine List.splitOn_intercalate '\n' (fun cs hcs => ?_) ?_
  · obtain ⟨s, hs, rfl⟩ := List.mem_map.1 hcs
    exact h s hs
  · simp [excerpt]

end CompileError

/-- The diagnostic of a compile error shows the place of the error. Around the place there are the
lines of the source before its line, the text of its line in front of it and behind it, and the rest
with the line's end. Split at its line feeds the diagnostic has 5 lines, or 6 with advice. The line
number is one more than the line feeds before the place, the column one more than the characters of
the line in front of it, and the line shown is that of the place, without its end; so as many of its
characters as stand in front of the column are those in front of the place. Places of one source are
in the order of their line numbers and columns. -/
theorem compileWithin_shows_place {limits : Reader.Limits} {source : String} {e : CompileError}
    (h : compileWithin limits source = .error e) {name : Option String}
    (hname : ∀ s, name = some s → '\n' ∉ s.toList) :
    (∃ previous lead tail rest, LineAround source.toList e.offset previous lead tail rest ∧
      let line := (previous ++ lead).count '\n' + 1
      let column := lead.length + 1
      Location.ofOffset source.toList e.offset = ⟨line, column⟩ ∧
      (lead ++ tail).take (column - 1) = lead ∧
      (e.diagnostic source name).toList.splitOn '\n' =
        (["Error: " ++ e.reason.message,
          " --> " ++ CompileError.place name ⟨line, column⟩,
          "  |",
          CompileError.lineNumber line ++ " | " ++ .ofList (lead ++ tail),
          "    | " ++ CompileError.carets ⟨line, column⟩ e.span] ++
          (e.hint.map ("  = hint: " ++ ·)).toList).map String.toList ∧
      ((e.diagnostic source name).toList.splitOn '\n').length =
        if e.hint.isSome then 6 else 5) ∧
    ∀ o o', String.Pos.Raw.IsValid source ⟨o⟩ → String.Pos.Raw.IsValid source ⟨o'⟩ → o < o' →
      (Location.ofOffset source.toList o).Precedes (Location.ofOffset source.toList o') := by
  refine ⟨?_, fun o o' => Location.ofOffset_precedes⟩
  obtain ⟨before, after, hsource, hoffset, hbreak⟩ := compileWithin_error_place h
  obtain ⟨previous, lead, tail, rest, -, hparts⟩ := exists_lineAround hbreak
  rw [← hsource, ← hoffset] at hparts
  have hexcerpt := CompileError.excerpt_eq hparts name
  have hsplit := CompileError.splitOn_diagnostic fun s hs => by
    rw [hexcerpt] at hs
    exact CompileError.oneLine_of_mem_linesAt (raised_of_compileWithin h) hname _ hparts.line hs
  rw [hexcerpt] at hsplit
  refine ⟨previous, lead, tail, rest, hparts, hparts.location_eq, ?_, hsplit, ?_⟩
  · rw [Nat.add_sub_cancel, List.take_left]
  · rw [hsplit, List.length_map, CompileError.length_linesAt]

/-- A line feed in the name of a field, on a line after one that ends with both characters. -/
theorem compileWithin_shows_place_lineFeed :
    compileWithin {} "ab\r\né%d\nx%" = .error (.invalidIdentifier '\n' 8) ∧
      (∀ s, some "t" = some s → '\n' ∉ s.toList) ∧
      (CompileError.invalidIdentifier '\n' 8).excerpt "ab\r\né%d\nx%" (some "t") =
        ["Error: invalid character '\\n' in field name", " --> t:2:4", "  |", "  2 | é%d",
          "    |    ^", "  = hint: field names may only contain letters, digits and '_'"] ∧
      (((CompileError.invalidIdentifier '\n' 8).diagnostic "ab\r\né%d\nx%"
        (some "t")).toList.splitOn '\n').length = 6 := by
  have herror : compileWithin {} "ab\r\né%d\nx%" = .error (.invalidIdentifier '\n' 8) := rfl
  have hname : ∀ s, some "t" = some s → '\n' ∉ s.toList := fun s hs => by
    cases hs
    decide
  obtain ⟨⟨previous, lead, tail, rest, -, -, -, -, hlength⟩, -⟩ :=
    compileWithin_shows_place herror hname
  exact ⟨herror, hname, by decide, hlength⟩

end TagTemplate
