import TagTemplate.Proofs.Moves
import TagTemplate.Proofs.Similarity

/-!
# Errors that are passed on

In the strict mode a function sees the errors of its operands, and where they point. Most functions
make nothing of that: wherever those errors point, they do the same, and they come to one text, to
an error of their own (`Body.OwnError`), or to an error that points where that of one operand does
(`Body.RelaysSpan`): the operand's error itself, or one in other words. They are said to pass spans
on (`Body.PassesSpans`), and all functions that pass errors on do so
(`Body.Propagates.passesSpans`).

An error that ends an evaluation points at a node, unless the function that raised it has pointed it
somewhere itself. `Node.Pointed` tells of an evaluation that fails whether its error was pointed by
a function. It goes back from call to call to where the error comes from: an error that the
evaluation makes for a field or a call is never pointed by a function, whatever other errors the
functions may raise.
-/

namespace TagTemplate

/-- The operands come to the same, but for where their errors point. -/
def SameAnswers (answer answer' : Nat → Except EvalError String) : Prop :=
  ∀ i, SameUpTo EvalError.SameFault (answer i) (answer' i)

/-- Operands come to the same as themselves. -/
theorem SameAnswers.refl (answer : Nat → Except EvalError String) : SameAnswers answer answer :=
  fun i => .refl .refl (answer i)

/-- The answers, with the error of one operand pointing somewhere else. -/
def redirect (i : Nat) (answer : Nat → Except EvalError String) : Nat → Except EvalError String :=
  fun j =>
    if j = i then
      (answer j).mapError fun e =>
        { e with span := if e.span = none then some ⟨0, 0⟩ else none }
    else answer j

/-- To redirect an error changes nothing but where it points. -/
theorem sameAnswers_redirect (i : Nat) (answer : Nat → Except EvalError String) :
    SameAnswers answer (redirect i answer) := by
  intro j
  unfold redirect
  split
  · cases answer j with
    | ok t => exact .ok t
    | error e => exact .error ⟨rfl, rfl⟩
  · exact .refl .refl (answer j)

/-- An error that is redirected points somewhere else than before. -/
theorem span_redirect_ne {i : Nat} {answer : Nat → Except EvalError String} {e e' : EvalError}
    (h : answer i = .error e) (h' : redirect i answer i = .error e') : e'.span ≠ e.span := by
  rw [redirect, if_pos rfl, h] at h'
  cases h'
  intro hspan
  dsimp only at hspan
  split at hspan
  · next hnone =>
    rw [hnone] at hspan
    cases hspan
  · next hsome => exact hsome hspan.symm

/-- The other operands come to what they came to. -/
theorem redirect_of_ne {i j : Nat} (h : j ≠ i) (answer : Nat → Except EvalError String) :
    redirect i answer j = answer j :=
  if_neg h

/-! ## Bodies -/

namespace Body

variable {α : Type} {answer : Nat → Except EvalError String} {x : Body α} {e : EvalError}

/-- The error is the body's own: the body ends with it wherever the errors of its operands point. -/
def OwnError (x : Body α) (answer : Nat → Except EvalError String) (e : EvalError) : Prop :=
  ∀ answer', SameAnswers answer answer' → x.run answer' = .error e

/-- The body ends with an error that points where that of the operand points, wherever that is. -/
def RelaysSpan (x : Body α) (answer : Nat → Except EvalError String) (i : Nat) : Prop :=
  ∃ anomaly cause, ∀ answer', SameAnswers answer answer' →
    ∃ e, answer' i = .error e ∧ x.run answer' = .error { anomaly, cause, span := e.span }

/-- Wherever the errors of its operands point, the body makes the same moves, and it comes to one
value, to an error of its own, or to an error that points where that of one operand does. -/
structure PassesSpans (x : Body α) : Prop where
  moves : ∀ {answer answer'}, SameAnswers answer answer' → x.moves answer' = x.moves answer
  run : ∀ answer, (∃ a, ∀ answer', SameAnswers answer answer' → x.run answer' = .ok a) ∨
    (∃ e, x.OwnError answer e) ∨ ∃ i, x.RelaysSpan answer i

/-- A body that passes errors on makes its moves wherever these point. -/
theorem Propagates.moves_eq {answer' : Nat → Except EvalError String} (h : x.Propagates)
    (hsame : SameAnswers answer answer') : x.moves answer' = x.moves answer := by
  induction h with
  | done result => rfl
  | announce h ih => exact congrArg (Move.announce :: ·) ih
  | @request i next error ok ih =>
    refine congrArg (Move.ask i :: ·) ?_
    have hi := hsame i
    generalize answer i = r at hi
    generalize answer' i = r' at hi
    cases hi with
    | ok t => exact ih t
    | error he =>
      rw [error, error]
      rfl

/-- A body that passes errors on comes to one value, to an error of its own, or to the error of the
first operand that fails. -/
theorem Propagates.run_cases (h : x.Propagates) (answer : Nat → Except EvalError String) :
    (∃ a, ∀ answer', SameAnswers answer answer' → x.run answer' = .ok a) ∨
      (∃ e, x.OwnError answer e) ∨ ∃ i, x.RelaysSpan answer i := by
  induction h with
  | done result =>
    cases result with
    | ok a => exact .inl ⟨a, fun _ _ => rfl⟩
    | error e => exact .inr (.inl ⟨e, fun _ _ => rfl⟩)
  | announce h ih => exact ih
  | @request i next error ok ih =>
    cases hi : answer i with
    | error e =>
      refine .inr (.inr ⟨i, e.anomaly, e.cause, fun answer' hsame => ?_⟩)
      obtain ⟨e', he', hfault⟩ := (hsame i).exists_error hi
      refine ⟨e', he', ?_⟩
      rw [Body.run, he', error, hfault.anomaly, hfault.cause]
      rfl
    | ok t =>
      have hrun : ∀ answer', SameAnswers answer answer' →
          (Body.request i next).run answer' = (next (.ok t)).run answer' := by
        intro answer' hsame
        rw [Body.run, ((hsame i).eq_ok_iff t).1 hi]
      rcases ih t with ⟨a, ha⟩ | ⟨e, he⟩ | ⟨j, anomaly, cause, hj⟩
      · exact .inl ⟨a, fun answer' hsame => (hrun answer' hsame).trans (ha answer' hsame)⟩
      · exact .inr (.inl ⟨e, fun answer' hsame => (hrun answer' hsame).trans (he answer' hsame)⟩)
      · refine .inr (.inr ⟨j, anomaly, cause, fun answer' hsame => ?_⟩)
        obtain ⟨e, he, hrest⟩ := hj answer' hsame
        exact ⟨e, he, (hrun answer' hsame).trans hrest⟩

/-- A body that passes errors on passes their spans on. -/
theorem Propagates.passesSpans (h : x.Propagates) : x.PassesSpans :=
  ⟨h.moves_eq, h.run_cases⟩

/-- The body ends with its own error. -/
theorem OwnError.run_eq (h : x.OwnError answer e) : x.run answer = .error e :=
  h answer (.refl answer)

/-- An error of the body's own does not point where that of an operand does. -/
theorem OwnError.not_relaysSpan (h : x.OwnError answer e) (i : Nat) : ¬x.RelaysSpan answer i := by
  rintro ⟨anomaly, cause, hrelays⟩
  obtain ⟨e₁, he₁, hrun₁⟩ := hrelays answer (.refl answer)
  obtain ⟨e₂, he₂, hrun₂⟩ := hrelays _ (sameAnswers_redirect i answer)
  rw [h.run_eq] at hrun₁
  rw [h _ (sameAnswers_redirect i answer)] at hrun₂
  have hspan := congrArg EvalError.span (Except.error.inj (hrun₂.symm.trans hrun₁))
  exact span_redirect_ne he₁ he₂ hspan

/-- A body takes the place of its error from one operand only. -/
theorem RelaysSpan.index_eq {i j : Nat} (hi : x.RelaysSpan answer i)
    (hj : x.RelaysSpan answer j) : i = j := by
  by_contra hne
  obtain ⟨_, _, hi⟩ := hi
  obtain ⟨_, _, hj⟩ := hj
  obtain ⟨e, he, hrun⟩ := hi answer (.refl answer)
  obtain ⟨e₁, he₁, hrun₁⟩ := hj answer (.refl answer)
  obtain ⟨e₂, he₂, hrun₂⟩ := hi _ (sameAnswers_redirect i answer)
  obtain ⟨e₃, he₃, hrun₃⟩ := hj _ (sameAnswers_redirect i answer)
  -- the error of `i` is redirected, and that of `j` is not
  rw [redirect_of_ne (Ne.symm hne), he₁] at he₃
  cases he₃
  have hspan := congrArg EvalError.span (Except.error.inj (hrun.symm.trans hrun₁))
  have hspan' := congrArg EvalError.span (Except.error.inj (hrun₂.symm.trans hrun₃))
  exact span_redirect_ne he he₂ (Eq.trans hspan' hspan.symm)

/-- The error with which the body ends was pointed somewhere by a function: by the body's own, or,
if it points where that of an operand does, where that was `pointed` by one. -/
def Points (x : Body α) (answer : Nat → Except EvalError String) (pointed : Nat → Prop) : Prop :=
  (∃ e, x.OwnError answer e ∧ e.span ≠ none) ∨ ∃ i, x.RelaysSpan answer i ∧ pointed i

/-- An error of the body's own was pointed by a function if it points somewhere. -/
theorem OwnError.points_iff (h : x.OwnError answer e) (pointed : Nat → Prop) :
    x.Points answer pointed ↔ e.span ≠ none := by
  constructor
  · rintro (⟨e', he', hspan⟩ | ⟨i, hi, -⟩)
    · cases h.run_eq.symm.trans he'.run_eq
      exact hspan
    · exact absurd hi (h.not_relaysSpan i)
  · exact fun hspan => .inl ⟨e, h, hspan⟩

/-- An error that points where that of an operand does was pointed by a function if that was. -/
theorem RelaysSpan.points_iff {i : Nat} (h : x.RelaysSpan answer i) (pointed : Nat → Prop) :
    x.Points answer pointed ↔ pointed i := by
  constructor
  · rintro (⟨e, he, -⟩ | ⟨j, hj, hpointed⟩)
    · exact absurd h (he.not_relaysSpan i)
    · exact h.index_eq hj ▸ hpointed
  · exact fun hpointed => .inr ⟨i, h, hpointed⟩

end Body

/-- The functions of the registry make nothing of where the errors of their operands point, but that
errors of theirs may point there, too. -/
def Registry.PassesSpans (r : Registry) : Prop :=
  r.All fun f => ∀ count, (f.body count).PassesSpans

/-- Functions that pass errors on pass their spans on. -/
theorem Registry.Propagates.passesSpans {r : Registry} (h : r.Propagates) : r.PassesSpans :=
  fun name f hf count => (h name f hf count).passesSpans

/-! ## Errors that a function has pointed somewhere -/

namespace Node

mutual

/-- The error with which the node ends a strict evaluation was pointed somewhere by a function: that
of the node, or that of a call in the operand whose span the function of the node passes on. -/
def Pointed (ctx : EvalContext) : Node → Nat → Prop
  | .literal _ _, _ => False
  | .field _ _, _ => False
  | .call _ _ _, 0 => False
  | .call name args _, levels + 1 =>
    match ctx.registry.resolve name args.length with
    | .error _ => False
    | .ok f => (f.body args.length).Points (fun i => (evalArgs ctx args levels i).result)
      (PointedArgs ctx args levels)

/-- `Pointed` for the first node of a sequence that fails. -/
def PointedSeq (ctx : EvalContext) : List Node → Nat → Prop
  | [], _ => False
  | n :: ns, levels =>
    match (n.eval ctx levels).result with
    | .ok _ => PointedSeq ctx ns levels
    | .error _ => n.Pointed ctx levels

/-- `Pointed` for an operand. -/
def PointedArgs (ctx : EvalContext) : List (List Node) → Nat → Nat → Prop
  | [], _, _ => False
  | a :: _, levels, 0 => PointedSeq ctx a levels
  | _ :: as, levels, i + 1 => PointedArgs ctx as levels i

end

/-- An operand is pointed as the argument is. -/
theorem PointedArgs_eq {ctx : EvalContext} {args : List (List Node)} {i : Nat} {a : List Node}
    (h : args[i]? = some a) (levels : Nat) :
    PointedArgs ctx args levels i = PointedSeq ctx a levels := by
  induction args generalizing i with
  | nil => cases h
  | cons b as ih =>
    cases i with
    | zero =>
      cases h
      rfl
    | succ i => exact ih h

end Node

end TagTemplate
