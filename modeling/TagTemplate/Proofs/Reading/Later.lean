import Mathlib.Data.List.Forall2
import TagTemplate.Proofs.Moving
import TagTemplate.Proofs.Reading.Room

/-!
# Reading a text later in a source

The errors that the reader raises for a text do not depend on what it has read before, once it is
back in the text at the top level: they are the errors it raises for the text alone, moved. Between
two states the relation `State.Later` says all that matters for errors: the mode, the parentheses
and the open calls are the same, `n` bytes later. It says nothing of the nodes, of the literal that
is growing and of what is taken up. A step keeps the relation or raises the same error on both sides
(`State.Later.step`), wants of room apart, and so does a run (`State.Later.run`). Together with
`read_roomy` this gives the errors of a source in two parts (`read_append_error`).
-/

namespace TagTemplate

namespace Reader

open Piece (charsSeq)

/-! ## Agreement of two computations -/

/-- The results are related by `R`, or the second is the error of the first, moved. -/
inductive SameOutcome {α β : Type} (n : Nat) (R : α → β → Prop) :
    Except CompileError α → Except CompileError β → Prop
  | ok {a : α} {b : β} (h : R a b) : SameOutcome n R (.ok a) (.ok b)
  | error (e : CompileError) : SameOutcome n R (.error e) (.error (e.move n))

/-- The outcomes are the same as long as there is room for both computations. -/
def Agree {α β : Type} (n : Nat) (R : α → β → Prop) (x : Except CompileError α)
    (y : Except CompileError β) : Prop :=
  Roomy x → Roomy y → SameOutcome n R x y

section
variable {α β γ δ : Type} {n : Nat} {R : α → β → Prop} {S : γ → δ → Prop}

/-- Results that are related agree. -/
theorem agree_ok {a : α} {b : β} (h : R a b) : Agree n R (.ok a) (.ok b) :=
  fun _ _ => .ok h

/-- An error agrees with itself, moved. -/
theorem agree_error {e e' : CompileError} (h : e.move n = e') :
    Agree n R (.error e : Except CompileError α) (.error e' : Except CompileError β) :=
  fun _ _ => h ▸ .error e

/-- A computation whose continuation does not run out of room does not either. -/
theorem Roomy.of_bind {x : Except CompileError α} {f : α → Except CompileError γ}
    (h : Roomy (x >>= f)) : Roomy x := by
  cases x with
  | error e => exact roomy_error (h e rfl)
  | ok a => exact roomy_ok a

/-- Computations that agree are continued by computations that agree. -/
theorem Agree.bind {x : Except CompileError α} {y : Except CompileError β}
    {f : α → Except CompileError γ} {g : β → Except CompileError δ} (h : Agree n R x y)
    (hfg : ∀ a b, R a b → Agree n S (f a) (g b)) : Agree n S (x >>= f) (y >>= g) := by
  intro hx hy
  have hxy := h hx.of_bind hy.of_bind
  cases hxy with
  | ok hab => exact hfg _ _ hab hx hy
  | error e => exact .error e

end

/-! ## States -/

/-- The mode `n` bytes later. -/
def Mode.move (n : Nat) : Mode → Mode
  | .text => .text
  | .escape start => .escape (start + n)
  | .fieldName start name => .fieldName (start + n) name
  | .brokenField start offender offset => .brokenField (start + n) offender (offset + n)
  | .callName start name => .callName (start + n) name

/-- The calls are open at places `n` bytes apart, inside as many groups of parentheses. -/
structure Frame.Later (n : Nat) (f g : Frame) : Prop where
  start : g.start = f.start + n
  groups : g.outer.groups = f.outer.groups

/-- The second state is in the middle of the same constructs, `n` bytes later. -/
structure State.Later (n : Nat) (st st' : State) : Prop where
  pos : st'.pos = st.pos + n
  mode : st'.mode = st.mode.move n
  groups : st'.draft.groups = st.draft.groups
  frames : List.Forall₂ (Frame.Later n) st.frames st'.frames

/-- The states differ at most in the nodes, the growing literal and what is taken up. -/
structure State.Alike (st st₁ : State) : Prop where
  pos : st₁.pos = st.pos
  mode : st₁.mode = st.mode
  groups : st₁.draft.groups = st.draft.groups
  frames : st₁.frames = st.frames

section
variable {n : Nat} {limits : Limits} {st st' st₁ st₁' : State} {frame frame' : Frame}
  {frames frames' : List Frame} {c : Char}

/-- States that are alike to two such states are as far apart. -/
theorem State.Later.congr (h : st.Later n st') (h₁ : st.Alike st₁) (h₁' : st'.Alike st₁') :
    st₁.Later n st₁' := by
  refine ⟨?_, ?_, ?_, ?_⟩
  · rw [h₁'.pos, h.pos, h₁.pos]
  · rw [h₁'.mode, h.mode, h₁.mode]
  · rw [h₁'.groups, h.groups, h₁.groups]
  · rw [h₁'.frames, h₁.frames]
    exact h.frames

/-- States stay as far apart when both go past a character. -/
theorem State.Later.skip (h : st.Later n st') (c : Char) : (st.skip c).Later n (st'.skip c) := by
  refine ⟨?_, h.mode, h.groups, h.frames⟩
  simp only [State.skip, h.pos, Nat.add_right_comm]

/-! ## Ends of literals, arguments and calls -/

/-- A reservation that does not fail for want of room succeeds. -/
theorem Limits.reserve_of_roomy {used amount pos : Nat}
    (h : Roomy (limits.reserve used amount pos)) :
    ∃ sum, limits.reserve used amount pos = .ok sum := by
  unfold Limits.reserve at h ⊢
  split
  · exact ⟨_, rfl⟩
  · next hfull =>
    rw [if_neg hfull] at h
    exact absurd rfl (h _ rfl limits.capacity)

/-- Ending a literal is no step in the source. -/
theorem State.endLiteral_of_roomy (h : Roomy (st.endLiteral limits)) :
    ∃ st₁, st.endLiteral limits = .ok st₁ ∧ st.Alike st₁ := by
  unfold State.endLiteral at h ⊢
  split
  · exact ⟨st, rfl, rfl, rfl, rfl, rfl⟩
  · next hlit =>
    rw [if_neg hlit] at h
    obtain ⟨sum, hsum⟩ := Limits.reserve_of_roomy h.of_bind
    rw [hsum]
    exact ⟨_, rfl, rfl, rfl, rfl, rfl⟩

/-- Ending an argument is no step in the source, and leaves the call where it is. -/
theorem State.endArgument_of_roomy (h : Roomy (st.endArgument limits frame)) :
    ∃ st₁ args, st.endArgument limits frame = .ok (st₁, { frame with args }) ∧ st.Alike st₁ := by
  unfold State.endArgument at h ⊢
  obtain ⟨st₁, hlit, halike⟩ := State.endLiteral_of_roomy h.of_bind
  rw [hlit] at h ⊢
  obtain ⟨sum, hsum⟩ := Limits.reserve_of_roomy (Roomy.of_bind h)
  refine ⟨{ st₁ with usage := { st₁.usage with nodes := sum } },
    frame.args.push st₁.draft.nodes.toList, ?_,
    ⟨halike.pos, halike.mode, halike.groups, halike.frames⟩⟩
  simp only [bind, Except.bind, hsum]

/-- So is ending the last argument of a call, or none. -/
theorem State.endLast_of_roomy {none : Bool}
    (h : Roomy (if none then .ok (st, frame) else st.endArgument limits frame)) :
    ∃ st₁ args, (if none then .ok (st, frame) else st.endArgument limits frame) =
      Except.ok (st₁, { frame with args }) ∧ st.Alike st₁ := by
  cases none with
  | true => exact ⟨st, frame.args, rfl, rfl, rfl, rfl, rfl⟩
  | false =>
    rw [if_neg Bool.false_ne_true] at h ⊢
    exact State.endArgument_of_roomy h

/-- To end a literal leaves the states as far apart. -/
theorem agree_endLiteral (h : st.Later n st') :
    Agree n (State.Later n) (st.endLiteral limits) (st'.endLiteral limits) := by
  intro hx hy
  obtain ⟨st₁, heq, halike⟩ := State.endLiteral_of_roomy hx
  obtain ⟨st₁', heq', halike'⟩ := State.endLiteral_of_roomy hy
  rw [heq, heq']
  exact .ok (h.congr halike halike')

/-- What `endArgument` gives on both sides. -/
structure LaterIn (n : Nat) (r r' : State × Frame) : Prop where
  state : r.1.Later n r'.1
  frame : r.2.Later n r'.2

/-- To end an argument leaves the states and the calls as far apart. -/
theorem agree_endArgument (h : st.Later n st') (hframe : frame.Later n frame') :
    Agree n (LaterIn n) (st.endArgument limits frame) (st'.endArgument limits frame') := by
  intro hx hy
  obtain ⟨st₁, args, heq, halike⟩ := State.endArgument_of_roomy hx
  obtain ⟨st₁', args', heq', halike'⟩ := State.endArgument_of_roomy hy
  rw [heq, heq']
  exact .ok ⟨h.congr halike halike', hframe.start, hframe.groups⟩

/-- Whether there is a last argument need not be the same on both sides. -/
theorem agree_endLast (h : st.Later n st') (hframe : frame.Later n frame') (none none' : Bool) :
    Agree n (LaterIn n) (if none then .ok (st, frame) else st.endArgument limits frame)
      (if none' then .ok (st', frame') else st'.endArgument limits frame') := by
  intro hx hy
  obtain ⟨st₁, args, heq, halike⟩ := State.endLast_of_roomy hx
  obtain ⟨st₁', args', heq', halike'⟩ := State.endLast_of_roomy hy
  rw [heq, heq']
  exact .ok ⟨h.congr halike halike', hframe.start, hframe.groups⟩

/-- To end a call leaves the states as far apart. -/
theorem agree_endCall (h : st.Later n st') (hframe : frame.Later n frame')
    (hframes : List.Forall₂ (Frame.Later n) frames frames') :
    Agree n (State.Later n) (st.endCall limits frame frames)
      (st'.endCall limits frame' frames') := by
  intro hx hy
  unfold State.endCall at hx hy ⊢
  obtain ⟨args, hargs⟩ := Limits.reserve_of_roomy hx.of_bind
  obtain ⟨args', hargs'⟩ := Limits.reserve_of_roomy hy.of_bind
  rw [hargs] at hx ⊢
  rw [hargs'] at hy ⊢
  obtain ⟨text, htext⟩ := Limits.reserve_of_roomy (Roomy.of_bind hx)
  obtain ⟨text', htext'⟩ := Limits.reserve_of_roomy (Roomy.of_bind hy)
  simp only [bind, Except.bind, htext, htext']
  exact .ok ⟨h.pos, rfl, hframe.groups, hframes⟩

/-! ## Steps -/

/-- A character of an argument leaves the states as far apart, or both fail alike. -/
theorem agree_stepArgument (h : st.Later n st') (hframe : frame.Later n frame')
    (hframes : List.Forall₂ (Frame.Later n) frames frames') :
    Agree n (State.Later n) (st.stepArgument limits frame frames c)
      (st'.stepArgument limits frame' frames' c) := by
  by_cases hcomma : c = ',' ∧ st.draft.groups = 0
  · have hcomma' : c = ',' ∧ st'.draft.groups = 0 := h.groups ▸ hcomma
    rw [State.stepArgument, State.stepArgument, if_pos hcomma, if_pos hcomma']
    refine (agree_endArgument h hframe).bind fun r r' hr => agree_ok ?_
    have hskip := hr.state.skip c
    exact ⟨hskip.pos, hskip.mode, rfl, .cons hr.frame hframes⟩
  have hcomma' : ¬(c = ',' ∧ st'.draft.groups = 0) := h.groups ▸ hcomma
  by_cases hclose : c = ')' ∧ st.draft.groups = 0
  · obtain ⟨rfl, hgroups⟩ := hclose
    rw [State.stepArgument_close hgroups, State.stepArgument_close (h.groups.trans hgroups)]
    refine (agree_endLast h hframe _ _).bind fun r r' hr => ?_
    exact agree_endCall (hr.state.skip ')') hr.frame hframes
  · have hclose' : ¬(c = ')' ∧ st'.draft.groups = 0) := h.groups ▸ hclose
    rw [State.stepArgument, State.stepArgument, if_neg hcomma, if_neg hcomma', if_neg hclose,
      if_neg hclose', h.groups]
    have hskip := h.skip c
    exact agree_ok ⟨hskip.pos, h.mode, rfl, h.frames⟩

/-- A character of text leaves the states as far apart, or both fail alike. -/
theorem agree_stepText (h : st.Later n st') :
    Agree n (State.Later n) (st.stepText limits c) (st'.stepText limits c) := by
  unfold State.stepText
  split
  · refine (agree_endLiteral h).bind fun st₁ st₁' h₁ => agree_ok ?_
    have hmode : Mode.fieldName st₁'.pos "" = (Mode.fieldName st₁.pos "").move n := by
      rw [Mode.move, h₁.pos]
    exact ⟨(h₁.skip c).pos, hmode, h₁.groups, h₁.frames⟩
  split
  · refine (agree_endLiteral h).bind fun st₁ st₁' h₁ => agree_ok ?_
    have hmode : Mode.callName st₁'.pos "" = (Mode.callName st₁.pos "").move n := by
      rw [Mode.move, h₁.pos]
    exact ⟨(h₁.skip c).pos, hmode, h₁.groups, h₁.frames⟩
  split
  · have hmode : Mode.escape st'.pos = (Mode.escape st.pos).move n := by
      rw [Mode.move, h.pos]
    exact agree_ok ⟨(h.skip c).pos, hmode, h.groups, h.frames⟩
  · have hframes := h.frames
    cases hst : st.frames with
    | nil =>
      rw [hst, List.forall₂_nil_left_iff] at hframes
      rw [hframes]
      exact agree_ok ⟨(h.skip c).pos, h.mode, h.groups, h.frames⟩
    | cons frame frames =>
      rw [hst, List.forall₂_cons_left_iff] at hframes
      obtain ⟨frame', frames', hframe, hframes, hst'⟩ := hframes
      rw [hst']
      exact agree_stepArgument h hframe hframes

/-- A character in the name of a field leaves the states as far apart, or both fail alike. -/
theorem agree_stepFieldName (h : st.Later n st') (start : Nat) (name : String) :
    Agree n (State.Later n) (st.stepFieldName limits start name c)
      (st'.stepFieldName limits (start + n) name c) := by
  unfold State.stepFieldName
  split
  · exact agree_ok ⟨(h.skip c).pos, rfl, h.groups, h.frames⟩
  split
  · have hmode : Mode.brokenField (start + n) c st'.pos =
        (Mode.brokenField start c st.pos).move n := by
      rw [Mode.move, h.pos]
    exact agree_ok ⟨(h.skip c).pos, hmode, h.groups, h.frames⟩
  split
  · exact agree_error (CompileError.emptyField_move n start)
  · intro hx hy
    obtain ⟨text, htext⟩ := Limits.reserve_of_roomy hx.of_bind
    obtain ⟨text', htext'⟩ := Limits.reserve_of_roomy hy.of_bind
    simp only [bind, Except.bind, htext, htext']
    exact .ok ⟨(h.skip c).pos, rfl, h.groups, h.frames⟩

/-- A character in the name of a call leaves the states as far apart, or both fail alike. -/
theorem agree_stepCallName (h : st.Later n st') (start : Nat) (name : String) :
    Agree n (State.Later n) (st.stepCallName limits start name c)
      (st'.stepCallName limits (start + n) name c) := by
  unfold State.stepCallName
  split
  · exact agree_ok ⟨(h.skip c).pos, rfl, h.groups, h.frames⟩
  split
  · exact agree_error (CompileError.emptyCall_move n start)
  split
  · rw [h.pos]
    exact agree_error rfl
  dsimp only
  have hpos := (h.skip c).pos
  rw [← h.frames.length_eq]
  split
  · rw [hpos]
    exact agree_error rfl
  · exact agree_ok ⟨hpos, rfl, rfl, .cons ⟨rfl, h.groups⟩ h.frames⟩

/-- A step keeps the states together, or raises one error on both sides. -/
theorem State.Later.step (h : st.Later n st') (c : Char) :
    Agree n (State.Later n) (st.step limits c) (st'.step limits c) := by
  unfold State.step
  rw [h.mode]
  cases st.mode with
  | text => exact agree_stepText h
  | escape start => exact agree_ok ⟨(h.skip c).pos, rfl, h.groups, h.frames⟩
  | fieldName start name => exact agree_stepFieldName h start name
  | brokenField start offender offset =>
    dsimp only [Mode.move]
    split
    · exact agree_error (CompileError.invalidIdentifier_move n offender offset)
    · have hskip := h.skip c
      exact agree_ok ⟨hskip.pos, hskip.mode, h.groups, h.frames⟩
  | callName start name => exact agree_stepCallName h start name

/-- At the end of the source both sides succeed, or raise one error. -/
theorem State.Later.finish (h : st.Later n st') :
    Agree n (fun _ _ => True) (st.finish limits) (st'.finish limits) := by
  unfold State.finish
  rw [h.mode]
  cases st.mode with
  | text =>
    dsimp only [Mode.move]
    have hframes := h.frames
    cases hst : st.frames with
    | nil =>
      rw [hst, List.forall₂_nil_left_iff] at hframes
      rw [hframes]
      refine (agree_endLiteral h).bind fun st₁ st₁' h₁ hx hy => ?_
      obtain ⟨sum, hsum⟩ := Limits.reserve_of_roomy hx.of_bind
      obtain ⟨sum', hsum'⟩ := Limits.reserve_of_roomy hy.of_bind
      simp only [bind, Except.bind, hsum, hsum']
      exact .ok trivial
    | cons frame frames =>
      rw [hst, List.forall₂_cons_left_iff] at hframes
      obtain ⟨frame', frames', hframe, -, hst'⟩ := hframes
      rw [hst']
      refine (agree_endArgument h hframe).bind fun r r' _ => ?_
      rw [hframe.start, h.pos]
      exact agree_error rfl
  | escape start => exact agree_error (CompileError.danglingEscape_move n start)
  | fieldName start name | brokenField start offender offset =>
    exact agree_error (CompileError.unterminatedField_move n start)
  | callName start name =>
    dsimp only [Mode.move]
    split
    · exact agree_error (CompileError.emptyCall_move n start)
    · rw [h.pos]
      exact agree_error rfl

/-! ## Sources -/

/-- A text is read alike wherever it stands. -/
theorem State.Later.run (h : st.Later n st') (cs : List Char) :
    Agree n (fun _ _ => True) (cs.foldlM (State.step limits) st >>= State.finish limits)
      (cs.foldlM (State.step limits) st' >>= State.finish limits) := by
  induction cs generalizing st st' with
  | nil => exact h.finish
  | cons c cs ih =>
    rw [List.foldlM_cons, List.foldlM_cons, bind_assoc, bind_assoc]
    exact (h.step c).bind fun _ _ h₁ => ih h₁

/-- After a source that is a template the reader is in the text at the top level, as at its start.
-/
theorem later_start {a : String} {ns : List Node} (hread : read limits a = .ok ns) :
    ∃ st, a.toList.foldlM (State.step limits) State.start = .ok st ∧
      State.start.Later a.utf8ByteSize st := by
  obtain ⟨st, hrun, hfinish⟩ := exists_of_bind_eq_ok hread
  obtain ⟨ps, hps, h⟩ := (reading_of_run hrun).atText_of_finish hfinish
  have hpos : st.pos = 0 + a.utf8ByteSize := by
    rw [h.pos, ← String.utf8Len_toList, hps]
    rfl
  have hframes : List.Forall₂ (Frame.Later a.utf8ByteSize) [] st.frames := by
    rw [h.frames_eq]
    exact .nil
  exact ⟨st, hrun, hpos, h.mode, h.legal.top rfl, hframes⟩

/-- The first error of a source that goes on after a template is that of the rest, moved. -/
theorem read_append_error {a b : String} {ns : List Node} {e : CompileError}
    (ha : read limits a = .ok ns) (hb : read limits b = .error e)
    (hroom : a.utf8ByteSize + b.utf8ByteSize ≤ limits.capacity) :
    read limits (a ++ b) = .error (e.move a.utf8ByteSize) := by
  obtain ⟨st, hrun, hlater⟩ := later_start ha
  have hboth : read limits (a ++ b) =
      b.toList.foldlM (State.step limits) st >>= State.finish limits := by
    rw [read, String.toList_append, List.foldlM_append, hrun]
    rfl
  have hagree : Agree a.utf8ByteSize (fun _ _ => True) (read limits b) (read limits (a ++ b)) := by
    rw [hboth]
    exact hlater.run b.toList
  have houtcome := hagree (read_roomy (by omega))
    (read_roomy (by rwa [String.utf8ByteSize_append]))
  rw [hb] at houtcome
  generalize read limits (a ++ b) = r at houtcome ⊢
  cases houtcome
  rfl

end

end Reader

end TagTemplate
