import TagTemplate.Proofs.Reading.Invariant

/-!
# Where the reader runs out of room

When a template outgrows its capacity, the reader is at the character that ends a literal, a field
reference, an argument or a call, or has just read it (`State.stepText_error`). So the place to
blame is never inside a line break.
-/

namespace TagTemplate

open String (utf8Len)

namespace Reader

/-- The computation fails, if it does, for want of room at one of the places. -/
def CrampedAt {α : Type} (places : List Nat) (x : Except CompileError α) : Prop :=
  ∀ e, x = .error e → ∃ limit, ∃ pos ∈ places, e = .templateTooLarge limit pos

section
variable {α β : Type} {places : List Nat}

/-- A computation that succeeds does not fail for want of room. -/
theorem crampedAt_ok (a : α) : CrampedAt places (.ok a : Except CompileError α) :=
  fun _ h => nomatch h

/-- A failure at one of some places is at one of more places. -/
theorem CrampedAt.mono {places' : List Nat} {x : Except CompileError α} (h : CrampedAt places x)
    (hplaces : places ⊆ places') : CrampedAt places' x := by
  intro e he
  obtain ⟨limit, pos, hpos, rfl⟩ := h e he
  exact ⟨limit, pos, hplaces hpos, rfl⟩

/-- Computations after each other fail for want of room where the first or the second does. -/
theorem CrampedAt.bind {x : Except CompileError α} {f : α → Except CompileError β}
    (hx : CrampedAt places x) (hf : ∀ a, x = .ok a → CrampedAt places (f a)) :
    CrampedAt places (x >>= f) := by
  cases x with
  | error e =>
    intro e' h
    cases h
    exact hx e rfl
  | ok a => exact hf a rfl

end

section
variable {limits : Limits} {st st' : State} {frame frame' : Frame} {c : Char} {e : CompileError}

/-- A reservation fails at the place that it is made for. -/
theorem crampedAt_reserve {used amount pos : Nat} :
    CrampedAt [pos] (limits.reserve used amount pos) := by
  intro e h
  unfold Limits.reserve at h
  split at h
  · cases h
  · cases h
    exact ⟨_, pos, List.mem_singleton_self pos, rfl⟩

/-- To end a literal moves the reader nowhere. -/
theorem State.pos_endLiteral (h : st.endLiteral limits = .ok st') : st'.pos = st.pos := by
  unfold endLiteral at h
  split at h
  · cases h
    rfl
  · obtain ⟨text, -, h⟩ := exists_of_bind_eq_ok h
    cases h
    rfl

/-- To end an argument moves the reader nowhere. -/
theorem State.pos_endArgument (h : st.endArgument limits frame = .ok (st', frame')) :
    st'.pos = st.pos := by
  obtain ⟨st₁, hend, h⟩ := exists_of_bind_eq_ok h
  obtain ⟨nodes, -, h⟩ := exists_of_bind_eq_ok h
  cases h
  exact (pos_endLiteral hend : st₁.pos = st.pos)

/-- The end of a literal may want room at the place of the reader. -/
theorem crampedAt_endLiteral : CrampedAt [st.pos] (st.endLiteral limits) := by
  unfold State.endLiteral
  split
  · exact crampedAt_ok _
  · exact crampedAt_reserve.bind fun _ _ => crampedAt_ok _

/-- The end of an argument may want room at the place of the reader. -/
theorem crampedAt_endArgument : CrampedAt [st.pos] (st.endArgument limits frame) :=
  crampedAt_endLiteral.bind fun st' h => by
    rw [← State.pos_endLiteral h]
    exact crampedAt_reserve.bind fun _ _ => crampedAt_ok _

/-- The end of a call may want room at the place of the reader. -/
theorem crampedAt_endCall {outer : List Frame} :
    CrampedAt [st.pos] (st.endCall limits frame outer) :=
  crampedAt_reserve.bind fun _ _ => crampedAt_reserve.bind fun _ _ => crampedAt_ok _

/-- A character of an argument may want room in front of it or behind it. -/
theorem crampedAt_stepArgument {outer : List Frame} :
    CrampedAt [st.pos, st.pos + c.utf8Size] (st.stepArgument limits frame outer c) := by
  have hend : CrampedAt [st.pos, st.pos + c.utf8Size] (st.endArgument limits frame) :=
    crampedAt_endArgument.mono (by simp)
  have hcall : ∀ (st' : State) (frame' : Frame), st'.pos = st.pos →
      CrampedAt [st.pos, st.pos + c.utf8Size] ((st'.skip c).endCall limits frame' outer) := by
    intro st' frame' hpos
    refine crampedAt_endCall.mono ?_
    simp [State.skip, hpos]
  unfold State.stepArgument
  split
  · exact hend.bind fun _ _ => crampedAt_ok _
  split
  · dsimp only
    split
    · exact (crampedAt_ok _).bind fun r h => by
        cases h
        exact hcall st frame rfl
    · exact hend.bind fun r h => hcall r.1 r.2 (State.pos_endArgument h)
  · exact crampedAt_ok _

/-- Only a comma or a parenthesis that closes ends an argument. -/
theorem State.stepArgument_ok {outer : List Frame} (hcomma : c ≠ ',') (hparen : c ≠ ')') :
    ∃ st', st.stepArgument limits frame outer c = .ok st' := by
  unfold stepArgument
  rw [if_neg fun h => hcomma h.1, if_neg fun h => hparen h.1]
  exact ⟨_, rfl⟩

/-- In the text of a sequence the reader runs out of room at a character that ends something. -/
theorem State.stepText_error (h : st.stepText limits c = .error e) :
    c ∈ ['%', '$', ',', ')'] ∧
      ∃ limit, ∃ pos ∈ [st.pos, st.pos + c.utf8Size], e = .templateTooLarge limit pos := by
  have hend : CrampedAt [st.pos, st.pos + c.utf8Size] (st.endLiteral limits) :=
    crampedAt_endLiteral.mono (by simp)
  unfold stepText at h
  split at h
  · next hc => exact ⟨by simp [hc], (hend.bind fun _ _ => crampedAt_ok _) e h⟩
  split at h
  · next hc => exact ⟨by simp [hc], (hend.bind fun _ _ => crampedAt_ok _) e h⟩
  split at h
  · cases h
  split at h
  · cases h
  · next frame outer _ =>
    refine ⟨?_, crampedAt_stepArgument e h⟩
    by_contra hc
    simp only [List.mem_cons, List.not_mem_nil, or_false, not_or] at hc
    obtain ⟨-, -, hcomma, hparen⟩ := hc
    obtain ⟨st', hok⟩ := State.stepArgument_ok hcomma hparen
    exact nomatch hok.symm.trans h

end

end Reader

end TagTemplate
