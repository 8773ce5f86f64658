import TagTemplate.Proofs.Reading.Invariant

/-!
# Every text that is read derives from the grammar

`Reading.step` is the step lemma of the reader's invariant, one case for each mode, and
`Reading.of_foldlM` the run lemma. At the end of the source the invariant leaves a derivation of the
whole text (`read_sound`).
-/

namespace TagTemplate

namespace Reader

open String (utf8Len)
open Piece (charsSeq charsEach sizeSeq nodes nodesArgs)

section
variable {limits : Limits} {frames : List Frame} {cs : List Char} {ps : List Piece}
  {st st' : State} {c : Char}

/-! ## Characters that are text -/

/-- To push a character is to append the text of it. -/
theorem push_eq_append_ofList (s : String) (c : Char) : s.push c = s ++ .ofList [c] := by
  rw [← String.singleton_eq_ofList, String.append_singleton]

/-- A text with a character in it is not empty. -/
theorem ofList_cons_ne_empty (c : Char) (cs : List Char) : String.ofList (c :: cs) ≠ "" := by
  intro h
  have := congrArg String.toList h
  simp at this

/-- An escape stands for some text. -/
theorem escapedText_ne_empty (c : Char) : Piece.escapedText c ≠ "" := by
  unfold Piece.escapedText
  split <;> exact ofList_cons_ne_empty _ _

/-- What the reader pushes for an escape is the text that the escape stands for. -/
theorem push_escapedText (s : String) (c : Char) :
    (if isEscapable c then s else s.push '\\').push c = s ++ Piece.escapedText c := by
  unfold Piece.escapedText
  split
  · rw [push_eq_append_ofList]
  · rw [push_eq_append_ofList, push_eq_append_ofList, String.append_assoc, ← String.ofList_append,
      List.singleton_append]

/-- A plain character joins the growing literal. -/
theorem AtText.keep (h : AtText limits frames cs ps st) {groups : Nat}
    (hlegal : Legal limits.maxDepth frames.length groups (ps ++ [.plain c])) :
    AtText limits frames cs (ps ++ [.plain c])
      ({ st with draft := { st.draft with groups } }.keep c) := by
  have hp : (Piece.plain c).node st.pos =
      .literal (.ofList [c]) ⟨st.pos, st.pos + (Piece.plain c).size⟩ := by
    rw [Piece.node, Piece.size_plain]
  have h' := h.append hp (ofList_cons_ne_empty c []) hlegal
  rwa [Piece.size_plain, ← push_eq_append_ofList] at h'

/-- An escaped character joins the growing literal, with its backslash if it needs none. -/
theorem AtText.stepEscape {start : Nat}
    (h : AtText limits frames cs ps { st with mode := .text, pos := start })
    (hpos : st.pos = start + 1) :
    AtText limits frames cs (ps ++ [.escaped c]) (st.stepEscape c) := by
  have hp : (Piece.escaped c).node start =
      .literal (Piece.escapedText c) ⟨start, start + (Piece.escaped c).size⟩ := by
    rw [Piece.node, Piece.size_escaped]
  have hlegal : Legal limits.maxDepth frames.length st.draft.groups (ps ++ [.escaped c]) :=
    h.legal.append trivial h.legal.top (fun _ => Piece.groups_escaped ..) h.legal.level_le
  have h' := h.append hp (escapedText_ne_empty c) hlegal
  have hst : st.stepEscape c = { st with
      mode := .text
      pos := start + (Piece.escaped c).size
      draft := { st.draft with literal := st.draft.literal ++ Piece.escapedText c } } := by
    simp only [State.stepEscape, State.keep, State.skip, push_escapedText, hpos,
      Piece.size_escaped, Nat.add_assoc]
  rw [hst]
  exact h'

/-! ## Fields and calls -/

/-- The percent sign after a name completes a field. -/
theorem Paused.field (h : Paused limits frames cs ps st) {start : Nat} {name : String}
    (hstart : start = utf8Len cs + sizeSeq ps) (hname : IsName name)
    (hpos : st.pos = start + (name.utf8ByteSize + 1))
    (hle : st.usage.text + name.utf8ByteSize ≤ limits.capacity) :
    AtText limits frames cs (ps ++ [.field name])
      ({ st with
        pos := st.pos + 1
        usage := { st.usage with text := st.usage.text + name.utf8ByteSize } }.addNode
          (.field name ⟨start, st.pos + 1⟩)) := by
  have hstop : st.pos + 1 = start + (name.utf8ByteSize + 2) := by
    rw [hpos, Nat.add_assoc]
  have hp : (Piece.field name).node (utf8Len cs + sizeSeq ps) =
      .field name ⟨start, st.pos + 1⟩ := by
    rw [Piece.node, ← hstart, hstop]
  have hlegal : Legal limits.maxDepth frames.length st.draft.groups (ps ++ [.field name]) :=
    h.legal.append hname h.legal.top (fun _ => Piece.groups_field ..) h.legal.level_le
  refine AtText.of_addNode h.frames_eq h.stack hlegal h.nodes_eq h.literal hp rfl ?_ ?_
    ⟨hle, h.fits.nodes, h.fits.args⟩
  · show st.pos + 1 = _
    rw [hstop, hstart, Piece.sizeSeq_append, Piece.sizeSeq_cons, Piece.size_field,
      Piece.sizeSeq_nil]
    omega
  · rw [usageSeq_nodes_append_singleton, hp, ← Usage.add_assoc, ← h.usage]
    ext <;> simp [Node.usage]

/-! ## Steps -/

/-- A step in the text of an argument. -/
theorem AtText.stepArgument {frame : Frame} (h : AtText limits (frame :: frames) cs ps st)
    (hplain : (Piece.plain c).Valid) (hok : st.stepArgument limits frame frames c = .ok st') :
    Reading limits (cs ++ charsSeq ps ++ [c]) st' := by
  by_cases hcomma : c = ',' ∧ st.draft.groups = 0
  · obtain ⟨rfl, hgroups⟩ := hcomma
    rw [State.stepArgument, if_pos ⟨rfl, hgroups⟩] at hok
    obtain ⟨r, he, hok⟩ := exists_of_bind_eq_ok hok
    cases hok
    cases h.stack with
    | cons stack opened =>
      have hread := Reading.text (h.comma stack opened hgroups he).2.2
      rwa [charsSeq, List.append_nil, argStart_append_singleton] at hread
  by_cases hclose : c = ')' ∧ st.draft.groups = 0
  · obtain ⟨rfl, hgroups⟩ := hclose
    rw [State.stepArgument_close hgroups] at hok
    obtain ⟨r, harg, hok⟩ := exists_of_bind_eq_ok hok
    cases h.stack with
    | @cons _ cs₀ _ ps₀ args stack opened =>
      obtain ⟨hname, hclosing⟩ := h.closing opened hgroups harg
      have hread := Reading.text (hclosing.endCall stack hok)
      rwa [hname, ← argStart_append_last] at hread
  · rw [State.stepArgument, if_neg hcomma, if_neg hclose] at hok
    cases hok
    have hgroups := Piece.groups_plain st.draft.groups c
    rw [if_neg (by tauto)] at hgroups
    have hlegal := h.legal.append hplain (fun hl => absurd hl (Nat.succ_ne_zero _))
      (fun _ => hgroups) h.legal.level_le
    have hread := Reading.text (h.keep hlegal)
    rw [Piece.charsSeq_append_singleton, ← List.append_assoc] at hread
    exact hread

/-- The mode and the offset say nothing of what was read before a piece. -/
theorem Paused.update (h : Paused limits frames cs ps st) (pos : Nat) (mode : Mode) :
    Paused limits frames cs ps { st with pos, mode } :=
  ⟨h.frames_eq, h.stack, h.legal, h.nodes_eq, h.literal, h.usage, h.fits⟩

/-- A step in the text of a sequence. -/
theorem AtText.stepText (h : AtText limits frames cs ps st)
    (hok : st.stepText limits c = .ok st') : Reading limits (cs ++ charsSeq ps ++ [c]) st' := by
  have hnone : ∀ c ∈ "".toList, isNameChar c = true := by simp
  unfold State.stepText at hok
  split at hok
  · next hc =>
    subst hc
    obtain ⟨st₁, hl, hok⟩ := exists_of_bind_eq_ok hok
    cases hok
    obtain ⟨hp, -, hpos⟩ := h.endLiteral hl
    have hp' := hp.update (st₁.pos + 1) (.fieldName st₁.pos "")
    exact .fieldName rfl hp' (hpos.trans h.pos) hnone rfl
  split at hok
  · next hc =>
    subst hc
    obtain ⟨st₁, hl, hok⟩ := exists_of_bind_eq_ok hok
    cases hok
    obtain ⟨hp, -, hpos⟩ := h.endLiteral hl
    have hp' := hp.update (st₁.pos + 1) (.callName st₁.pos "")
    exact .callName rfl hp' (hpos.trans h.pos) hnone rfl
  split at hok
  · next hc =>
    subst hc
    cases hok
    have hst : { st with mode := .text } = st := by
      rw [← h.mode]
    exact .escape rfl (hst.symm ▸ h) rfl
  · next hpercent hdollar hbackslash =>
    have hplain : (Piece.plain c).Valid := ⟨hpercent, hdollar, hbackslash⟩
    cases hframes : st.frames with
    | nil =>
      rw [hframes] at hok
      cases hok
      have hframes' : frames = [] := h.frames_eq.symm.trans hframes
      subst hframes'
      have hgroups : st.draft.groups = 0 := h.legal.top rfl
      have hlegal : Legal limits.maxDepth 0 st.draft.groups (ps ++ [.plain c]) :=
        h.legal.append hplain (fun _ => hgroups) (fun hl => absurd rfl hl) h.legal.level_le
      have hread := Reading.text (h.keep hlegal)
      rw [Piece.charsSeq_append_singleton, ← List.append_assoc] at hread
      exact hread
    | cons frame outer =>
      rw [hframes] at hok
      have hframes' : frames = frame :: outer := h.frames_eq.symm.trans hframes
      subst hframes'
      exact h.stepArgument hplain hok

/-! ## Steps in names -/

/-- A name stays one when a character of names is added. -/
theorem isNameChar_push {name : String} (hchars : ∀ c ∈ name.toList, isNameChar c = true)
    (hc : isNameChar c = true) : ∀ d ∈ (name.push c).toList, isNameChar d = true := by
  rw [String.toList_push, List.forall_mem_append]
  exact ⟨hchars, by simpa using hc⟩

/-- A step in the name of a field. -/
theorem Paused.stepFieldName (h : Paused limits frames cs ps st) {start : Nat} {name : String}
    (hstart : start = utf8Len cs + sizeSeq ps)
    (hchars : ∀ c ∈ name.toList, isNameChar c = true)
    (hpos : st.pos = start + (name.utf8ByteSize + 1))
    (hok : st.stepFieldName limits start name c = .ok st') :
    Reading limits (cs ++ charsSeq ps ++ '%' :: name.toList ++ [c]) st' := by
  unfold State.stepFieldName at hok
  split at hok
  · next hc =>
    cases hok
    have hp := h.update (st.pos + c.utf8Size) (.fieldName start (name.push c))
    have hpos' : st.pos + c.utf8Size = start + ((name.push c).utf8ByteSize + 1) := by
      rw [hpos, String.utf8ByteSize_push]
      omega
    have hread := Reading.fieldName rfl hp hstart (isNameChar_push hchars hc) hpos'
    rw [String.toList_push, ← List.cons_append, ← List.append_assoc] at hread
    exact hread
  split at hok
  · next hc hpercent =>
    cases hok
    have hp := h.update (st.pos + c.utf8Size) (.brokenField start c st.pos)
    have hrest : ∀ d ∈ [c], d ≠ '%' := by
      simpa using hpercent
    have hread := Reading.brokenField rfl hp hstart hchars hpos (Bool.eq_false_iff.2 hc) hrest
      (by simp)
    rw [← List.cons_append, ← List.append_assoc] at hread
    exact hread
  split at hok
  · cases hok
  · next hpercent hname =>
    rw [not_not] at hpercent
    subst hpercent
    obtain ⟨sum, hr, hok⟩ := exists_of_bind_eq_ok hok
    cases hok
    obtain ⟨rfl, hle⟩ := Limits.reserve_eq_ok hr
    have hcs : cs ++ charsSeq ps ++ '%' :: name.toList ++ ['%'] =
        cs ++ charsSeq (ps ++ [.field name]) := by
      simp [Piece.charsSeq_append_singleton, Piece.chars]
    rw [hcs]
    exact .text (h.field hstart ⟨hname, hchars⟩ hpos hle)

/-- A step in the name of a function. -/
theorem Paused.stepCallName (h : Paused limits frames cs ps st) {start : Nat} {name : String}
    (hstart : start = utf8Len cs + sizeSeq ps)
    (hchars : ∀ c ∈ name.toList, isNameChar c = true)
    (hpos : st.pos = start + (name.utf8ByteSize + 1))
    (hok : st.stepCallName limits start name c = .ok st') :
    Reading limits (cs ++ charsSeq ps ++ '$' :: name.toList ++ [c]) st' := by
  unfold State.stepCallName at hok
  split at hok
  · next hc =>
    cases hok
    have hp := h.update (st.pos + c.utf8Size) (.callName start (name.push c))
    have hpos' : st.pos + c.utf8Size = start + ((name.push c).utf8ByteSize + 1) := by
      rw [hpos, String.utf8ByteSize_push]
      omega
    have hread := Reading.callName rfl hp hstart (isNameChar_push hchars hc) hpos'
    rw [String.toList_push, ← List.cons_append, ← List.append_assoc] at hread
    exact hread
  split at hok
  · cases hok
  split at hok
  · cases hok
  · next hname hparen =>
    rw [not_not] at hparen
    subst hparen
    dsimp only at hok
    split at hok
    · cases hok
    · next hdepth =>
      cases hok
      rw [h.frames_eq, Nat.not_le] at hdepth
      have hcs : cs ++ charsSeq ps ++ '$' :: name.toList ++ ['('] =
          argStart cs ps name [] ++ charsSeq [] := by
        simp [argStart, charsSeq, charsEach]
      rw [hcs, h.frames_eq]
      exact .text (h.openCall hstart ⟨hname, hchars⟩ hpos hdepth).2

/-- Every step extends the text that was read by its character. -/
theorem Reading.step {cs : List Char} (h : Reading limits cs st)
    (hok : st.step limits c = .ok st') : Reading limits (cs ++ [c]) st' := by
  unfold State.step at hok
  cases h with
  | text h =>
    rw [h.mode] at hok
    exact h.stepText hok
  | escape mode h pos =>
    rw [mode] at hok
    cases hok
    rw [List.append_assoc, List.append_assoc]
    have hread := Reading.text (h.stepEscape (c := c) pos)
    rw [Piece.charsSeq_append_singleton, Piece.chars] at hread
    exact hread
  | fieldName mode h start_eq chars pos =>
    rw [mode] at hok
    exact h.stepFieldName start_eq chars pos hok
  | @brokenField frames cs ps _ start offset name offender rest mode h start_eq chars offset_eq
      not_name rest_ne pos =>
    rw [mode] at hok
    dsimp only at hok
    split at hok
    · cases hok
    · next hc =>
      cases hok
      have hrest : ∀ d ∈ offender :: (rest ++ [c]), d ≠ '%' := by
        rw [← List.cons_append, List.forall_mem_append]
        exact ⟨rest_ne, by simpa using hc⟩
      have hpos : st.pos + c.utf8Size = offset + utf8Len (offender :: (rest ++ [c])) := by
        rw [pos, ← List.cons_append, String.utf8Len_append, Nat.add_assoc]
        simp
      have hp := h.update (st.pos + c.utf8Size) (.brokenField start offender offset)
      have hread := Reading.brokenField rfl hp start_eq chars offset_eq not_name hrest hpos
      have hst : st.skip c = { st with
          pos := st.pos + c.utf8Size, mode := .brokenField start offender offset } := by
        rw [State.skip, ← mode]
      rw [hst]
      simpa using hread
  | callName mode h start_eq chars pos =>
    rw [mode] at hok
    exact h.stepCallName start_eq chars pos hok

/-! ## Runs -/

/-- Nothing is read at the start. -/
theorem atText_start (limits : Limits) : AtText limits [] [] [] State.start :=
  ⟨rfl, rfl, .nil, ⟨trivial, fun _ => rfl, fun h => absurd rfl h, Nat.zero_le _⟩, rfl,
    fun _ => rfl, fun _ => rfl, rfl, ⟨Nat.zero_le _, Nat.zero_le _, Nat.zero_le _⟩⟩

/-- A run extends the text that was read by all its characters. -/
theorem Reading.of_foldlM {cs ds : List Char} (h : Reading limits cs st)
    (hok : ds.foldlM (State.step limits) st = .ok st') : Reading limits (cs ++ ds) st' := by
  induction ds generalizing cs st with
  | nil =>
    cases hok
    rwa [List.append_nil]
  | cons d ds ih =>
    rw [List.foldlM_cons] at hok
    obtain ⟨st₁, hd, hok⟩ := exists_of_bind_eq_ok hok
    have h' := ih (h.step hd) hok
    rwa [List.append_assoc] at h'

/-- A run from the start reads all its characters. -/
theorem reading_of_run (hok : cs.foldlM (State.step limits) State.start = .ok st) :
    Reading limits cs st :=
  (Reading.text (atText_start limits)).of_foldlM hok

end

/-! ## The end -/

/-- A derivation of a source text within limits. -/
structure Derives (limits : Limits) (source : String) (ps : List Piece) : Prop
    extends Piece.Spells ps source where
  depth : Piece.depthSeq ps ≤ limits.maxDepth
  fits : (Node.usageRoot (nodes 0 ps)).Within limits.capacity

/-- A source that ends well ends in the text at the top level. -/
theorem Reading.atText_of_finish {limits : Limits} {cs : List Char} {st : State} {ns : List Node}
    (h : Reading limits cs st) (hok : st.finish limits = .ok ns) :
    ∃ ps, cs = charsSeq ps ∧ AtText limits [] [] ps st := by
  unfold State.finish at hok
  cases h with
  | @text frames cs ps _ h =>
    rw [h.mode] at hok
    dsimp only at hok
    cases hframes : st.frames with
    | nil =>
      have hframes' : frames = [] := h.frames_eq.symm.trans hframes
      subst hframes'
      cases h.stack with
      | nil => exact ⟨ps, List.nil_append _, h⟩
    | cons frame outer =>
      rw [hframes] at hok
      obtain ⟨r, -, hok⟩ := exists_of_bind_eq_ok hok
      cases hok
  | escape mode => rw [mode] at hok; cases hok
  | fieldName mode => rw [mode] at hok; cases hok
  | brokenField mode => rw [mode] at hok; cases hok
  | callName mode => rw [mode] at hok; cases hok

/-- What is read at the end of a source is the tree of a derivation. -/
theorem Reading.finish {limits : Limits} {cs : List Char} {st : State} {ns : List Node}
    (hread : Reading limits cs st) (hok : st.finish limits = .ok ns) :
    ∃ ps, Derives limits (.ofList cs) ps ∧ ns = nodes 0 ps := by
  obtain ⟨ps, rfl, h⟩ := hread.atText_of_finish hok
  unfold State.finish at hok
  rw [h.mode] at hok
  dsimp only at hok
  rw [h.frames_eq] at hok
  obtain ⟨st₁, hl, hok⟩ := exists_of_bind_eq_ok hok
  obtain ⟨sum, hr, hok⟩ := exists_of_bind_eq_ok hok
  cases hok
  obtain ⟨hp, -, -⟩ := h.endLiteral hl
  obtain ⟨-, hle⟩ := Limits.reserve_eq_ok hr
  have hdepth := h.legal.depth
  rw [List.length_nil, Nat.zero_add] at hdepth
  refine ⟨ps, ⟨⟨h.legal.valid, String.toList_ofList.symm⟩, hdepth, ?_⟩, hp.nodes_eq⟩
  have husage := hp.usage
  have hfits := hp.fits
  rw [spent, Usage.zero_add] at husage
  rw [husage] at hfits hle
  rw [← Array.length_toList, hp.nodes_eq] at hle
  exact ⟨hfits.text, hle, hfits.args⟩

/-- What is read derives from the grammar, and is the tree of the derivation. -/
theorem read_sound {limits : Limits} {source : String} {ns : List Node}
    (hok : read limits source = .ok ns) :
    ∃ ps, Derives limits source ps ∧ ns = nodes 0 ps := by
  unfold read at hok
  obtain ⟨st, hrun, hok⟩ := exists_of_bind_eq_ok hok
  have h := (reading_of_run hrun).finish hok
  rwa [String.ofList_toList] at h

end Reader

end TagTemplate
