import TagTemplate.Proofs.Reading.Sound

/-!
# A short source is never too large

The tables of a template have room for as many text bytes, nodes and arguments as their capacity
says. What the reader has finished, and what it is about to finish, takes up no more than the bytes
it has read (`Stack.spent_within`), so the errors it raises for a source no longer than the capacity
are never for want of room (`read_roomy`). This holds of every source, also of one that is no
template.
-/

namespace TagTemplate

namespace Reader

open String (utf8Len)
open Piece (charsSeq charsEach sizeSeq nodes nodesArgs)

/-! ## Room -/

/-- The computation does not end for want of room. -/
def Roomy {α : Type} (x : Except CompileError α) : Prop :=
  ∀ e, x = .error e → ∀ limit, e.reason ≠ .templateTooLarge limit

section
variable {α β : Type}

/-- A result is no want of room. -/
theorem roomy_ok (a : α) : Roomy (.ok a : Except CompileError α) := by
  intro e h
  cases h

/-- An error of another reason is no want of room. -/
theorem roomy_error {e : CompileError} (h : ∀ limit, e.reason ≠ .templateTooLarge limit) :
    Roomy (.error e : Except CompileError α) := by
  intro e' he'
  cases he'
  exact h

/-- A computation that succeeds does not run out of room. -/
theorem roomy_of_isOk {x : Except CompileError α} (h : ∃ a, x = .ok a) : Roomy x := by
  obtain ⟨a, rfl⟩ := h
  exact roomy_ok a

/-- Computations after each other do not run out of room if neither does. -/
theorem Roomy.bind {x : Except CompileError α} {f : α → Except CompileError β} (hx : Roomy x)
    (hf : ∀ a, x = .ok a → Roomy (f a)) : Roomy (x >>= f) := by
  cases x with
  | error e => exact roomy_error (hx e rfl)
  | ok a => exact hf a rfl

end

/-! ## What is taken up -/

/-- Complete arguments take up no more than their source text has bytes. -/
theorem usageArgs_each_within (args : List (List Piece)) (pos : Nat) :
    (Node.usageArgs (nodesArgs pos args)).Within (utf8Len (charsEach args)) := by
  induction args generalizing pos with
  | nil => exact ⟨Nat.le_refl _, Nat.le_refl _, Nat.le_refl _⟩
  | cons a as ih =>
    have hsize : utf8Len (charsEach (a :: as)) = sizeSeq a + 1 + utf8Len (charsEach as) := by
      have hcomma : utf8Len [','] = 1 := rfl
      rw [charsEach, List.flatMap_cons, String.utf8Len_append, String.utf8Len_append, hcomma,
        sizeSeq, charsEach]
    have ha := (Piece.usageRoot_nodes_within pos a).mono (Nat.le_add_right _ 1)
    rw [hsize]
    exact ha.add (ih _)

/-- The finished parts of the open calls take up no more than the source text before the innermost
sequence has bytes. -/
theorem Stack.spent_within {maxDepth : Nat} {frames : List Frame} {cs : List Char}
    (h : Stack maxDepth frames cs) : (spent frames).Within (utf8Len cs) := by
  induction h with
  | nil => exact ⟨Nat.le_refl _, Nat.le_refl _, Nat.le_refl _⟩
  | @cons frames cs frame ps args stack opened ih =>
    have houter := (Piece.usageRoot_nodes_within (utf8Len cs) ps)
    rw [Node.usageRoot] at houter
    have hargs := usageArgs_each_within args (frame.start + (frame.name.utf8ByteSize + 2))
    rw [spent, opened.outer, opened.args_eq, utf8Len_argStart]
    refine ((ih.add houter.left).add hargs).mono ?_
    omega

section
variable {limits : Limits} {frames : List Frame} {cs : List Char} {ps : List Piece}
  {st st' : State} {c : Char}

/-- With the pieces of the innermost sequence, too, no more is taken up than was read. -/
theorem Stack.within {maxDepth : Nat} (h : Stack maxDepth frames cs) (ps : List Piece) {n : Nat}
    (hn : utf8Len (cs ++ charsSeq ps) ≤ n) :
    (spent frames + Node.usageRoot (nodes (utf8Len cs) ps)).Within n := by
  rw [String.utf8Len_append] at hn
  exact (h.spent_within.add (Piece.usageRoot_nodes_within (utf8Len cs) ps)).mono hn

/-- With the nodes of the pieces but not their places, too, no more is taken up than was read. -/
theorem Stack.within_seq {maxDepth : Nat} (h : Stack maxDepth frames cs) (ps : List Piece) {n : Nat}
    (hn : utf8Len (cs ++ charsSeq ps) ≤ n) :
    (spent frames + Node.usageSeq (nodes (utf8Len cs) ps)).Within n := by
  have hwithin := h.within ps hn
  rw [Node.usageRoot, ← Usage.add_assoc] at hwithin
  exact hwithin.left

/-- There is room for what was read if there is for more. -/
theorem utf8Len_left_le {cs ds : List Char} {n : Nat} (h : utf8Len (cs ++ ds) ≤ n) :
    utf8Len cs ≤ n := by
  rw [String.utf8Len_append] at h
  omega

/-! ## Steps -/

/-- A step in the text of an argument has room. -/
theorem AtText.stepArgument_roomy {frame : Frame} (h : AtText limits (frame :: frames) cs ps st)
    (hroom : utf8Len (cs ++ charsSeq ps ++ [c]) ≤ limits.capacity) :
    Roomy (st.stepArgument limits frame frames c) := by
  have hread := utf8Len_left_le hroom
  by_cases hcomma : c = ',' ∧ st.draft.groups = 0
  · rw [State.stepArgument, if_pos hcomma]
    have hend := h.endArgument_isOk frame (h.stack.within ps hread)
    exact (roomy_of_isOk hend).bind fun _ _ => roomy_ok _
  by_cases hclose : c = ')' ∧ st.draft.groups = 0
  · obtain ⟨rfl, hgroups⟩ := hclose
    rw [State.stepArgument_close hgroups]
    have hend : ∃ r, (if frame.args.isEmpty && st.atSequenceStart then .ok (st, frame)
        else st.endArgument limits frame) = Except.ok r := by
      split
      · exact ⟨_, rfl⟩
      · exact h.endArgument_isOk frame (h.stack.within ps hread)
    refine (roomy_of_isOk hend).bind fun r hr => roomy_of_isOk ?_
    cases h.stack with
    | @cons _ cs₀ _ ps₀ args stack opened =>
      obtain ⟨hname, hclosing⟩ := h.closing opened hgroups hr
      rw [argStart_append_last] at hroom
      exact hclosing.endCall_isOk (stack.within_seq _ (hname ▸ hroom))
  · rw [State.stepArgument, if_neg hcomma, if_neg hclose]
    exact roomy_ok _

/-- A step in the text of a sequence has room. -/
theorem AtText.stepText_roomy (h : AtText limits frames cs ps st)
    (hroom : utf8Len (cs ++ charsSeq ps ++ [c]) ≤ limits.capacity) :
    Roomy (st.stepText limits c) := by
  have hend := h.endLiteral_isOk (h.stack.within_seq ps (utf8Len_left_le hroom))
  unfold State.stepText
  split
  · exact (roomy_of_isOk hend).bind fun _ _ => roomy_ok _
  split
  · exact (roomy_of_isOk hend).bind fun _ _ => roomy_ok _
  split
  · exact roomy_ok _
  · cases hframes : st.frames with
    | nil => exact roomy_ok _
    | cons frame outer =>
      have hframes' : frames = frame :: outer := h.frames_eq.symm.trans hframes
      subst hframes'
      exact h.stepArgument_roomy hroom

/-- A step in the name of a field has room. -/
theorem Paused.stepFieldName_roomy (h : Paused limits frames cs ps st) {start : Nat}
    {name : String} (hroom : utf8Len (cs ++ charsSeq ps ++ '%' :: name.toList) ≤ limits.capacity) :
    Roomy (st.stepFieldName limits start name c) := by
  unfold State.stepFieldName
  split
  · exact roomy_ok _
  split
  · exact roomy_ok _
  split
  · exact roomy_error fun _ => CompileReason.noConfusion
  · have hle : st.usage.text + name.utf8ByteSize ≤ limits.capacity := by
      have hspent := (h.stack.within_seq ps (Nat.le_refl _)).text
      rw [← h.usage] at hspent
      rw [String.utf8Len_append, String.utf8Len_cons, String.utf8Len_toList] at hroom
      omega
    exact (roomy_of_isOk ⟨_, Limits.reserve_of_le _ hle⟩).bind fun _ _ => roomy_ok _

/-- A character in the name of a call takes up no room. -/
theorem roomy_stepCallName (limits : Limits) (st : State) (start : Nat) (name : String)
    (c : Char) : Roomy (st.stepCallName limits start name c) := by
  unfold State.stepCallName
  split
  · exact roomy_ok _
  split
  · exact roomy_error fun _ => CompileReason.noConfusion
  split
  · exact roomy_error fun _ => CompileReason.noConfusion
  dsimp only
  split
  · exact roomy_error fun _ => CompileReason.noConfusion
  · exact roomy_ok _

/-- Every step has room. -/
theorem Reading.step_roomy {cs : List Char} (h : Reading limits cs st)
    (hroom : utf8Len (cs ++ [c]) ≤ limits.capacity) : Roomy (st.step limits c) := by
  unfold State.step
  cases h with
  | text h =>
    rw [h.mode]
    exact h.stepText_roomy hroom
  | escape mode =>
    rw [mode]
    exact roomy_ok _
  | fieldName mode h =>
    rw [mode]
    exact h.stepFieldName_roomy (utf8Len_left_le hroom)
  | brokenField mode =>
    rw [mode]
    dsimp only
    split
    · exact roomy_error fun _ => CompileReason.noConfusion
    · exact roomy_ok _
  | callName mode =>
    rw [mode]
    exact roomy_stepCallName limits st _ _ c

/-- The end of the source has room. -/
theorem Reading.finish_roomy {cs : List Char} (h : Reading limits cs st)
    (hroom : utf8Len cs ≤ limits.capacity) : Roomy (st.finish limits) := by
  unfold State.finish
  cases h with
  | @text frames cs ps _ h =>
    rw [h.mode]
    dsimp only
    cases hframes : st.frames with
    | nil =>
      have hwithin := h.stack.within ps hroom
      refine (roomy_of_isOk (h.endLiteral_isOk (h.stack.within_seq ps hroom))).bind fun st₁ hl => ?_
      obtain ⟨hp, -, -⟩ := h.endLiteral hl
      have hle : st₁.usage.nodes + st₁.draft.nodes.size ≤ limits.capacity := by
        rw [hp.usage, ← Array.length_toList, hp.nodes_eq]
        rw [Node.usageRoot, ← Usage.add_assoc] at hwithin
        exact hwithin.nodes
      exact (roomy_of_isOk ⟨_, Limits.reserve_of_le _ hle⟩).bind fun _ _ => roomy_ok _
    | cons frame outer =>
      refine (roomy_of_isOk (h.endArgument_isOk frame (h.stack.within ps hroom))).bind fun _ _ => ?_
      exact roomy_error fun _ => CompileReason.noConfusion
  | escape mode | fieldName mode | brokenField mode =>
    rw [mode]
    exact roomy_error fun _ => CompileReason.noConfusion
  | callName mode =>
    rw [mode]
    dsimp only
    split <;> exact roomy_error fun _ => CompileReason.noConfusion

/-- The rest of a source has room. -/
theorem Reading.run_roomy {cs ds : List Char} (h : Reading limits cs st)
    (hroom : utf8Len (cs ++ ds) ≤ limits.capacity) :
    Roomy (ds.foldlM (State.step limits) st >>= State.finish limits) := by
  induction ds generalizing cs st with
  | nil =>
    rw [List.append_nil] at hroom
    exact h.finish_roomy hroom
  | cons d ds ih =>
    rw [List.foldlM_cons, bind_assoc]
    rw [List.append_cons] at hroom
    exact (h.step_roomy (utf8Len_left_le hroom)).bind fun st' hstep => ih (h.step hstep) hroom

end

/-- Reading a source that is no longer than the capacity never ends for want of room. -/
theorem read_roomy {limits : Limits} {source : String}
    (h : source.utf8ByteSize ≤ limits.capacity) : Roomy (read limits source) := by
  refine (Reading.text (atText_start limits)).run_roomy ?_
  simpa [charsSeq] using h

end Reader

end TagTemplate
