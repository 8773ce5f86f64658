import TagTemplate.Proofs.Reading.Sound

/-!
# What was read can be completed

A text that the reader has got through is the beginning of a template, unless a character has spoilt
the name of a field in it (`Reading.completes`). The piece that is under way is ended first, a name
with a letter more; then every open call is closed, the groups in its argument before it
(`closers`). All of this takes few bytes more than the text has, and no more calls nest than the
limit says, but for a call whose arguments were still to begin.
-/

namespace TagTemplate

open String (utf8Len)

namespace Piece

/-! ## Open groups -/

/-- Every open group was opened by a character. -/
theorem groups_le {g g' : Nat} {p : Piece} (h : groups g p = some g') : g' ≤ g + p.size := by
  cases p with
  | plain c =>
    rw [groups_plain] at h
    split at h
    · cases h
    · cases h
      have hc := c.utf8Size_pos
      rw [size_plain]
      split
      · omega
      · split <;> omega
  | escaped | field | call =>
    simp only [groups_escaped, groups_field, groups_call, Option.some.injEq] at h
    omega

/-- No more groups are open than there were and than the pieces have bytes. -/
theorem groupsSeq_le {g g' : Nat} {ps : List Piece} (h : groupsSeq g ps = some g') :
    g' ≤ g + sizeSeq ps := by
  induction ps generalizing g with
  | nil =>
    cases h
    exact Nat.le_add_right _ _
  | cons p ps ih =>
    rw [groupsSeq, List.foldlM_cons] at h
    obtain ⟨g₁, hp, h⟩ := Option.bind_eq_some_iff.1 h
    have hfirst := groups_le hp
    have hrest := ih h
    rw [sizeSeq_cons]
    omega

/-- Closing parentheses, as many as `g`. -/
def closing (g : Nat) : List Piece :=
  List.replicate g (.plain ')')

/-- The source text of closing parentheses is that many of them. -/
theorem charsSeq_closing (g : Nat) : charsSeq (closing g) = List.replicate g ')' := by
  induction g with
  | zero => rfl
  | succ g ih =>
    rw [closing, List.replicate_succ, charsSeq, ← closing, ih, List.replicate_succ, chars,
      List.singleton_append]

/-- A closing parenthesis has one byte. -/
theorem sizeSeq_closing (g : Nat) : sizeSeq (closing g) = g := by
  induction g with
  | zero => rfl
  | succ g ih =>
    have hparen : (')' : Char).utf8Size = 1 := rfl
    rw [closing, List.replicate_succ, sizeSeq_cons, ← closing, ih, size_plain, hparen,
      Nat.add_comm]

/-- As many closing parentheses as there are groups leave none open. -/
theorem groupsSeq_closing (g : Nat) : groupsSeq g (closing g) = some 0 := by
  induction g with
  | zero => rfl
  | succ g ih => exact ih

/-- The language has closing parentheses. -/
theorem validSeq_closing (g : Nat) : ValidSeq (closing g) := by
  refine (validSeq_iff _).2 fun p hp => ?_
  rw [List.eq_of_mem_replicate hp]
  exact ⟨by decide, by decide, by decide⟩

/-- Closing parentheses have no calls in them. -/
theorem depthSeq_closing (g : Nat) : depthSeq (closing g) = 0 := by
  induction g with
  | zero => rfl
  | succ g ih =>
    rw [closing, List.replicate_succ, depthSeq, ← closing, ih]
    rfl

end Piece

namespace Reader

open Piece (charsSeq charsEach sizeSeq)

/-! ## Open calls -/

/-- The parentheses that close `groups` groups and their call, and then the groups and the call
around it, as far as the `frames` go. -/
def closers : List Frame → Nat → List Char
  | [], _ => []
  | frame :: frames, groups =>
    List.replicate groups ')' ++ ')' :: closers frames frame.outer.groups

/-- What may stand at the beginning of a sequence may do so if more nesting is allowed. -/
theorem Legal.mono {m m' level g : Nat} {ps : List Piece} (h : Legal m level g ps) (hm : m ≤ m') :
    Legal m' level g ps :=
  ⟨h.valid, h.top, h.inner, Nat.le_trans h.depth hm⟩

/-- No more groups are open than the pieces have bytes. -/
theorem Legal.groups_le {m level g : Nat} {ps : List Piece} (h : Legal m level g ps) :
    g ≤ sizeSeq ps := by
  by_cases hl : level = 0
  · rw [h.top hl]
    exact Nat.zero_le _
  · have hg := Piece.groupsSeq_le (h.inner hl)
    omega

/-- All open groups may be closed. -/
theorem Legal.closing {m level g : Nat} {ps : List Piece} (h : Legal m level g ps) :
    Legal m level 0 (ps ++ Piece.closing g) := by
  refine ⟨(Piece.validSeq_append _ _).2 ⟨h.valid, Piece.validSeq_closing g⟩, fun _ => rfl,
    fun hl => ?_, ?_⟩
  · rw [Piece.groupsSeq_append, h.inner hl, Option.bind_some, Piece.groupsSeq_closing]
  · rw [Piece.depthSeq_append, Piece.depthSeq_closing, Nat.max_zero]
    exact h.depth

section
variable {m m' g : Nat} {frames : List Frame} {cs : List Char} {ps : List Piece}

/-- The arguments are no deeper with the last one than the deeper of both. -/
theorem depthArgs_lastArgs_le (args : List (List Piece)) (ps : List Piece) :
    Piece.depthArgs (lastArgs args ps) ≤ max (Piece.depthArgs args) (Piece.depthSeq ps) := by
  unfold lastArgs
  split
  · exact Nat.zero_le _
  · rw [Piece.depthArgs_append_singleton]

/-- The parentheses that close all open calls are no more than the text before has bytes. -/
theorem Stack.utf8Len_closers_le (stack : Stack m frames cs)
    (legal : Legal m' frames.length g ps) :
    utf8Len (closers frames g) ≤ utf8Len cs + sizeSeq ps := by
  induction stack generalizing m' g ps with
  | nil => exact Nat.zero_le _
  | @cons frames cs frame ps₀ args stack opened ih =>
    have houter := ih opened.legal
    have hgroups := legal.groups_le
    have hsize : utf8Len (List.replicate g ')') = g := by
      rw [← Piece.charsSeq_closing, ← sizeSeq, Piece.sizeSeq_closing]
    have hparen : (')' : Char).utf8Size = 1 := rfl
    rw [closers, String.utf8Len_append, String.utf8Len_cons, hsize, hparen, utf8Len_argStart]
    omega

/-- What may stand at the end of a text with open calls is completed by closing them. -/
theorem Stack.completes (stack : Stack m frames cs) (hm : m ≤ m')
    (legal : Legal m' frames.length g ps) :
    ∃ qs, Piece.Spells qs (.ofList (cs ++ charsSeq ps ++ closers frames g)) ∧
      Piece.depthSeq qs ≤ m' := by
  induction stack generalizing g ps with
  | nil =>
    have hdepth := legal.depth
    rw [List.length_nil, Nat.zero_add] at hdepth
    exact ⟨ps, ⟨legal.valid, by simp [closers]⟩, hdepth⟩
  | @cons frames cs frame ps₀ args stack opened ih =>
    -- The groups of the last argument are closed, then the call, and then what is around it.
    have hlast := legal.closing
    have hbalanced : Piece.Balanced (ps ++ Piece.closing g) := hlast.inner (Nat.succ_ne_zero _)
    have hargs := valid_lastArgs opened.valid hlast.valid hbalanced
    have hcall : Legal m' frames.length frame.outer.groups
        (ps₀ ++ [.call frame.name (lastArgs args (ps ++ Piece.closing g))]) := by
      refine (opened.legal.mono hm).append ⟨opened.name, hargs.2, hargs.1⟩ opened.legal.top
        (fun _ => Piece.groups_call ..) ?_
      have hopened := opened.depth
      have hdepth := hlast.depth
      rw [List.length_cons] at hdepth
      have hboth := depthArgs_lastArgs_le args (ps ++ Piece.closing g)
      rw [Piece.depth]
      omega
    obtain ⟨qs, hqs, hdepth⟩ := ih hcall
    refine ⟨qs, ?_, hdepth⟩
    rw [← argStart_append_last, Piece.charsSeq_append, Piece.charsSeq_closing] at hqs
    simpa [closers] using hqs

/-- A piece of which `as` is read and `bs` is missing is completed, and then the open calls are
closed. -/
theorem Stack.completes_piece (stack : Stack m frames cs) (legal : Legal m frames.length g ps)
    {p : Piece} {as bs : List Char} (hchars : p.chars = as ++ bs) (hbs : utf8Len bs ≤ 3)
    (hp : p.Valid) (hgroups : p.groups g = some g) (hdepth : p.depth ≤ 1) :
    ∃ ds, utf8Len ds ≤ utf8Len (cs ++ charsSeq ps ++ as) + 3 ∧
      ∃ qs, Piece.Spells qs (.ofList (cs ++ charsSeq ps ++ as ++ ds)) ∧
        Piece.depthSeq qs ≤ m + 1 := by
  have hlegal : Legal (m + 1) frames.length g (ps ++ [p]) := by
    refine (legal.mono (Nat.le_succ m)).append hp legal.top (fun _ => hgroups) ?_
    have hlevel := legal.level_le
    omega
  obtain ⟨qs, hqs, hqdepth⟩ := stack.completes (Nat.le_succ m) hlegal
  refine ⟨bs ++ closers frames g, ?_, qs, ?_, hqdepth⟩
  · have hclosers := stack.utf8Len_closers_le legal
    simp only [String.utf8Len_append, sizeSeq] at hclosers ⊢
    omega
  · rw [Piece.charsSeq_append_singleton, hchars] at hqs
    simpa using hqs

end

/-- A name with a letter more is a name, also if nothing is read of it yet. -/
theorem isName_push {name : String} (h : ∀ c ∈ name.toList, isNameChar c = true) :
    IsName (name.push 'a') := by
  refine ⟨fun hempty => ?_, isNameChar_push h (by decide)⟩
  have hlist := congrArg String.toList hempty
  simp at hlist

/-- A text that the reader has got through is the beginning of a template, unless it has met a
character that cannot stand in the name of a field. -/
theorem Reading.completes {limits : Limits} {cs : List Char} {st : State}
    (h : Reading limits cs st)
    (hmode : ∀ start offender offset, st.mode ≠ .brokenField start offender offset) :
    ∃ ds, utf8Len ds ≤ utf8Len cs + 3 ∧
      ∃ qs, Piece.Spells qs (.ofList (cs ++ ds)) ∧ Piece.depthSeq qs ≤ limits.maxDepth + 1 := by
  cases h with
  | @text frames cs ps _ h =>
    have hclosers := h.stack.utf8Len_closers_le h.legal
    obtain ⟨qs, hqs, hdepth⟩ := h.stack.completes (Nat.le_refl _) h.legal
    refine ⟨_, ?_, qs, hqs, Nat.le_succ_of_le hdepth⟩
    rw [Piece.utf8Len_append_charsSeq]
    omega
  | escape mode h pos =>
    have hchars : (Piece.escaped '\\').chars = ['\\'] ++ ['\\'] := rfl
    exact h.stack.completes_piece h.legal hchars (by decide) trivial (Piece.groups_escaped ..)
      (Nat.zero_le _)
  | @fieldName frames cs ps _ start name mode h start_eq chars pos =>
    have hchars : (Piece.field (name.push 'a')).chars = '%' :: name.toList ++ ['a', '%'] := by
      simp [Piece.chars]
    exact h.stack.completes_piece h.legal hchars (by decide) (isName_push chars)
      (Piece.groups_field ..) (Nat.zero_le _)
  | brokenField mode => exact absurd mode (hmode _ _ _)
  | @callName frames cs ps _ start name mode h start_eq chars pos =>
    have hchars : (Piece.call (name.push 'a') []).chars =
        '$' :: name.toList ++ ['a', '(', ')'] := by
      simp [Piece.chars, Piece.charsArgs]
    have hvalid : (Piece.call (name.push 'a') []).Valid :=
      ⟨isName_push chars, (List.cons_ne_nil _ _).symm, trivial⟩
    exact h.stack.completes_piece h.legal hchars (by decide) hvalid (Piece.groups_call ..)
      (Nat.le_refl _)

end Reader

end TagTemplate
