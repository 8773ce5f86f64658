import Mathlib.Data.List.Induction
import TagTemplate.Diagnostic
import TagTemplate.Proofs.Coverage

/-!
# Lines and places of a source text

A place in a source text lies between two characters. Around it the text falls into the whole lines
before, the part of the place's line in front of it and the part behind, and the rest, which begins
with the end of the line (`LineAround`). Line numbers and columns count the whole lines and the
characters of the part in front (`LineAround.location_eq`), and the line shown is made up of the two
parts (`LineAround.sourceLine_eq`). Only the place inside a line break of two characters, a carriage
return and a line feed, has no such parts, since the line is shown without the carriage return.
-/

namespace TagTemplate

open String (utf8Len)

/-! ## Locations -/

namespace Location

/-- The first location comes before the second in the reading order. -/
def Precedes (a b : Location) : Prop :=
  a.line < b.line ∨ a.line = b.line ∧ a.column < b.column

/-- The reading order is transitive. -/
theorem Precedes.trans {a b c : Location} (hab : a.Precedes b) (hbc : b.Precedes c) :
    a.Precedes c := by
  unfold Precedes at *
  omega

/-- Every character moves the location on. -/
theorem precedes_after (l : Location) (c : Char) : l.Precedes (l.after c) := by
  unfold after
  split
  · exact .inl (Nat.lt_succ_self _)
  · exact .inr ⟨rfl, Nat.lt_succ_self _⟩

/-- Characters move a location on. -/
theorem precedes_foldl_after (l : Location) {cs : List Char} (hne : cs ≠ []) :
    l.Precedes (cs.foldl after l) := by
  induction cs generalizing l with
  | nil => exact absurd rfl hne
  | cons c cs ih =>
    rw [List.foldl_cons]
    cases cs with
    | nil => exact precedes_after l c
    | cons d ds => exact (precedes_after l c).trans (ih _ (List.cons_ne_nil d ds))

/-- The walk to the end of a part of the source takes in all characters of the part. -/
theorem walk_append (before after : List Char) (pos : Nat) (l : Location) :
    walk (pos + utf8Len before) pos l (before ++ after) = before.foldl Location.after l := by
  induction before generalizing pos l with
  | nil =>
    rw [String.utf8Len_nil, Nat.add_zero, List.nil_append, List.foldl_nil]
    cases after with
    | nil => rfl
    | cons c cs => exact if_pos (Nat.le_refl pos)
  | cons c cs ih =>
    have hsize : 0 < c.utf8Size := c.utf8Size_pos
    rw [String.utf8Len_cons, List.cons_append, walk, if_neg (by omega), List.foldl_cons,
      ← ih (pos + c.utf8Size)]
    congr 1
    omega

/-- The location of a place is what the characters before it come to. -/
theorem ofOffset_append (before after : List Char) :
    ofOffset (before ++ after) (utf8Len before) = before.foldl Location.after ⟨1, 1⟩ := by
  have h := walk_append before after 0 ⟨1, 1⟩
  rwa [Nat.zero_add] at h

/-- An offset between two characters parts the source. -/
theorem exists_append_of_isValid {source : String} {o : Nat}
    (h : String.Pos.Raw.IsValid source ⟨o⟩) :
    ∃ before after, source.toList = before ++ after ∧ o = utf8Len before := by
  obtain ⟨s, t, rfl, hs⟩ := String.Pos.Raw.isValid_iff_exists_append.1 h
  refine ⟨s.toList, t.toList, String.toList_append, ?_⟩
  rw [String.utf8Len_toList]
  exact congrArg String.Pos.Raw.byteIdx hs

/-- A later place of a source has a later location. -/
theorem ofOffset_precedes {source : String} {o o' : Nat}
    (ho : String.Pos.Raw.IsValid source ⟨o⟩) (ho' : String.Pos.Raw.IsValid source ⟨o'⟩)
    (hlt : o < o') : (ofOffset source.toList o).Precedes (ofOffset source.toList o') := by
  obtain ⟨before, after, hsource, rfl⟩ := exists_append_of_isValid ho
  obtain ⟨before', after', hsource', rfl⟩ := exists_append_of_isValid ho'
  rcases List.append_eq_append_iff.1 (hsource.symm.trans hsource') with
    ⟨between, rfl, -⟩ | ⟨between, rfl, -⟩
  · have hne : between ≠ [] := by
      rintro rfl
      rw [List.append_nil] at hlt
      exact Nat.lt_irrefl _ hlt
    have hlater := ofOffset_append (before ++ between) after'
    rw [← hsource', List.foldl_append] at hlater
    rw [hlater, hsource, ofOffset_append]
    exact precedes_foldl_after _ hne
  · rw [String.utf8Len_append] at hlt
    omega

/-- The lines are counted by the line feeds. -/
theorem line_foldl_after (l : Location) (cs : List Char) :
    (cs.foldl after l).line = l.line + cs.count '\n' := by
  induction cs generalizing l with
  | nil => rfl
  | cons c cs ih =>
    rw [List.foldl_cons, ih, after]
    split
    · next hc =>
      subst hc
      rw [List.count_cons_self, Nat.add_assoc, Nat.add_comm 1]
    · next hc => rw [List.count_cons_of_ne hc]

/-- Within a line the columns are counted. -/
theorem foldl_after_of_notMem (l : Location) {cs : List Char} (h : '\n' ∉ cs) :
    cs.foldl after l = ⟨l.line, l.column + cs.length⟩ := by
  induction cs generalizing l with
  | nil => rfl
  | cons c cs ih =>
    rw [List.mem_cons, not_or] at h
    rw [List.foldl_cons, ih _ h.2, after, if_neg (Ne.symm h.1), List.length_cons]
    simp only [Nat.add_assoc, Nat.add_comm 1]

end Location

/-! ## Parts of a source text around a place -/

/-- The place between the two parts lies inside a line break of two characters. -/
def SplitsBreak (before after : List Char) : Prop :=
  ∃ bs as, before = bs ++ ['\r'] ∧ after = '\n' :: as

/-- A place in front of another character than a line feed is not inside a line break. -/
theorem not_splitsBreak_cons {c : Char} (hc : c ≠ '\n') (before after : List Char) :
    ¬ SplitsBreak before (c :: after) := by
  rintro ⟨bs, as, -, has⟩
  exact hc (List.cons.inj has).1

/-- A place behind another character than a carriage return is not inside a line break. -/
theorem not_splitsBreak_concat {c : Char} (hc : c ≠ '\r') (before after : List Char) :
    ¬ SplitsBreak (before ++ [c]) after := by
  rintro ⟨bs, as, hbs, -⟩
  exact hc (List.singleton_inj.1 (List.append_inj_right' hbs rfl))

/-- The text is made up of lines with their ends. -/
def WholeLines (cs : List Char) : Prop :=
  cs = [] ∨ ∃ bs, cs = bs ++ ['\n']

/-- What may follow a line: nothing, or a line break of which the line has no part. -/
inductive EndsLine (line : List Char) : List Char → Prop
  | eof : EndsLine line []
  | lf {rest : List Char} (h : ∀ bs, line ≠ bs ++ ['\r']) : EndsLine line ('\n' :: rest)
  | crlf {rest : List Char} : EndsLine line ('\r' :: '\n' :: rest)

/-- The parts of a source around the place at the offset: the lines before its line, the line in
front of the place and behind it, and the rest. -/
structure LineAround (source : List Char) (offset : Nat) (previous lead tail rest : List Char) :
    Prop where
  source_eq : source = previous ++ lead ++ tail ++ rest
  offset_eq : offset = utf8Len (previous ++ lead)
  previous : WholeLines previous
  line : '\n' ∉ lead ++ tail
  ends : EndsLine (lead ++ tail) rest

/-- A text begins with whole lines and ends with a part of a line. -/
theorem exists_wholeLines_append (cs : List Char) :
    ∃ previous lead, cs = previous ++ lead ∧ WholeLines previous ∧ '\n' ∉ lead := by
  induction cs using List.reverseRecOn with
  | nil => exact ⟨[], [], rfl, .inl rfl, List.not_mem_nil⟩
  | append_singleton cs c ih =>
    by_cases hc : c = '\n'
    · subst hc
      exact ⟨cs ++ ['\n'], [], (List.append_nil _).symm, .inr ⟨cs, rfl⟩, List.not_mem_nil⟩
    · obtain ⟨previous, lead, rfl, hprevious, hlead⟩ := ih
      refine ⟨previous, lead ++ [c], List.append_assoc .., hprevious, ?_⟩
      rw [List.mem_append, List.mem_singleton, not_or]
      exact ⟨hlead, Ne.symm hc⟩

/-- A text ends without a line feed, or a part of it does that a line feed follows. -/
theorem exists_append_lineFeed (cs : List Char) :
    '\n' ∉ cs ∨ ∃ as bs, cs = as ++ '\n' :: bs ∧ '\n' ∉ as := by
  by_cases h : '\n' ∈ cs
  · obtain ⟨as, bs, hcs, has⟩ := List.eq_append_cons_of_mem h
    exact .inr ⟨as, bs, hcs, has⟩
  · exact .inl h

/-- There are such parts around every place but those inside a line break. -/
theorem exists_lineAround {before after : List Char} (h : ¬ SplitsBreak before after) :
    ∃ previous lead tail rest, before = previous ++ lead ∧
      LineAround (before ++ after) (utf8Len before) previous lead tail rest := by
  obtain ⟨previous, lead, rfl, hprevious, hlead⟩ := exists_wholeLines_append before
  rcases exists_append_lineFeed after with hafter | ⟨body, rest, rfl, hbody⟩
  · refine ⟨previous, lead, after, [], rfl, ⟨(List.append_nil _).symm, rfl, hprevious, ?_, .eof⟩⟩
    exact fun hmem => (List.mem_append.1 hmem).elim hlead hafter
  rcases List.eq_nil_or_concat body with rfl | ⟨as, c, rfl⟩
  -- the place is at the line feed: a carriage return in front of it would be part of the break
  · refine ⟨previous, lead, [], '\n' :: rest, rfl, ⟨?_, rfl, hprevious, ?_, .lf fun bs hbs => ?_⟩⟩
    · rw [List.append_nil, List.nil_append]
    · rwa [List.append_nil]
    · rw [List.append_nil] at hbs
      exact h ⟨previous ++ bs, rest, by rw [hbs, List.append_assoc], rfl⟩
  rw [List.concat_eq_append] at hbody ⊢
  by_cases hc : c = '\r'
  · subst hc
    refine ⟨previous, lead, as, '\r' :: '\n' :: rest, rfl, ⟨?_, rfl, hprevious, ?_, .crlf⟩⟩
    · simp
    · exact fun hmem => (List.mem_append.1 hmem).elim hlead fun has =>
        hbody (List.mem_append_left _ has)
  · refine ⟨previous, lead, as ++ [c], '\n' :: rest, rfl,
      ⟨?_, rfl, hprevious, ?_, .lf fun bs hbs => ?_⟩⟩
    · rw [List.append_assoc (previous ++ lead)]
    · exact fun hmem => (List.mem_append.1 hmem).elim hlead hbody
    · rw [← List.append_assoc] at hbs
      exact hc (List.singleton_inj.1 (List.append_inj_right' hbs rfl))

/-! ## The line of a place -/

namespace LineAround

variable {source : List Char} {offset : Nat} {previous lead tail rest : List Char}
  (h : LineAround source offset previous lead tail rest)
include h

/-- The line has no line feed in front of the place. -/
theorem lead_notMem : '\n' ∉ lead :=
  fun hmem => h.line (List.mem_append_left _ hmem)

/-- All line feeds in front of a place end lines before its own. -/
theorem count_eq : (previous ++ lead).count '\n' = previous.count '\n' := by
  rw [List.count_append, List.count_eq_zero.2 h.lead_notMem, Nat.add_zero]

/-- The line is counted by the line feeds in front of it, the column by the characters between. -/
theorem location_eq :
    Location.ofOffset source offset = ⟨(previous ++ lead).count '\n' + 1, lead.length + 1⟩ := by
  have hprevious : previous.foldl Location.after ⟨1, 1⟩ = ⟨previous.count '\n' + 1, 1⟩ := by
    rcases h.previous with rfl | ⟨bs, rfl⟩
    · rfl
    · rw [List.foldl_append, List.foldl_cons, List.foldl_nil, Location.after, if_pos rfl,
        Location.line_foldl_after, List.count_append, List.count_singleton_self, Nat.add_comm 1]
  rw [h.count_eq, h.source_eq, List.append_assoc (previous ++ lead), h.offset_eq,
    Location.ofOffset_append, List.foldl_append, hprevious,
    Location.foldl_after_of_notMem _ h.lead_notMem, Nat.add_comm 1]

end LineAround

/-- Line feeds end lines. -/
theorem drop_linesFrom (current cs rest : List Char) :
    (linesFrom current (cs ++ '\n' :: rest)).drop (cs.count '\n' + 1) = linesFrom [] rest := by
  induction cs generalizing current with
  | nil =>
    rw [List.nil_append, linesFrom, if_pos rfl]
    rfl
  | cons c cs ih =>
    rw [List.cons_append, linesFrom]
    by_cases hc : c = '\n'
    · subst hc
      rw [if_pos rfl, List.count_cons_self, List.drop_succ_cons]
      exact ih []
    · rw [if_neg hc, List.count_cons_of_ne hc]
      exact ih (c :: current)

/-- Within a line the characters are gathered. -/
theorem linesFrom_append_of_notMem {cs : List Char} (h : '\n' ∉ cs) (current rest : List Char) :
    linesFrom current (cs ++ rest) = linesFrom (cs.reverse ++ current) rest := by
  induction cs generalizing current with
  | nil => rfl
  | cons c cs ih =>
    rw [List.mem_cons, not_or] at h
    rw [List.cons_append, linesFrom, if_neg (Ne.symm h.1), ih h.2, List.reverse_cons,
      List.append_assoc, List.singleton_append]

/-- A line without a carriage return at its end is left as it is. -/
theorem finishedLine_reverse {line : List Char} (h : ∀ bs, line ≠ bs ++ ['\r']) :
    finishedLine line.reverse = line := by
  unfold finishedLine
  split
  · next cs hcs => exact absurd (List.reverse_eq_cons_iff.1 hcs) (h _)
  · exact List.reverse_reverse line

/-- The first line of a text is what comes before its end. -/
theorem getD_linesFrom {line rest : List Char} (hline : '\n' ∉ line) (h : EndsLine line rest) :
    (linesFrom [] (line ++ rest)).getD 0 [] = line := by
  rw [linesFrom_append_of_notMem hline, List.append_nil]
  cases h with
  | eof =>
    rw [linesFrom]
    split
    · next hempty => exact (List.reverse_eq_nil_iff.1 hempty).symm
    · exact List.reverse_reverse line
  | lf h =>
    rw [linesFrom, if_pos rfl]
    exact finishedLine_reverse h
  | crlf =>
    rw [linesFrom, if_neg (by decide), linesFrom, if_pos rfl]
    exact List.reverse_reverse line

/-- The line of a place is shown without the line break. -/
theorem LineAround.sourceLine_eq {source : List Char} {offset : Nat}
    {previous lead tail rest : List Char} (h : LineAround source offset previous lead tail rest) :
    sourceLine source ((previous ++ lead).count '\n' + 1) = lead ++ tail := by
  have hlines : (linesFrom [] source).drop (previous.count '\n') =
      linesFrom [] (lead ++ tail ++ rest) := by
    rw [h.source_eq]
    rcases h.previous with rfl | ⟨bs, rfl⟩
    · simp
    · have hdrop := drop_linesFrom [] bs (lead ++ tail ++ rest)
      simpa using hdrop
  rw [sourceLine, Nat.add_sub_cancel, h.count_eq, List.getD_eq_getElem?_getD,
    ← Nat.add_zero (List.count _ _), ← List.getElem?_drop, hlines, ← List.getD_eq_getElem?_getD]
  exact getD_linesFrom h.line h.ends

end TagTemplate
