import TagTemplate.Proofs.Propagation
import TagTemplate.Proofs.Visiting

/-!
# Functions that account for their errors

An error with which a function ends is that of an operand it has asked for, passed on, or the
function fails of its own accord (`Body.Propagates.error_cases`). A function accounts for its errors
if the latter happens for one of two reasons only: it fails in a way of its own, or it does not take
the text of an operand. Which texts a function does not take is left open; `Misread` says it of all
that the library has to offer (`Registry.accountable_builtins`).
-/

namespace TagTemplate

variable {α β : Type} {answer : Nat → Except EvalError String} {e : EvalError}

namespace Body

/-! ## Results of bodies -/

/-- The result of the body, where `answer` is what the operands come to. -/
def run (answer : Nat → Except EvalError String) : Body α → Except EvalError α
  | .done result => result
  | .request i next => (next (answer i)).run answer
  | .announce next => next.run answer

/-- The result of a body that goes on is that of its second part, once the first has a value. -/
theorem run_bind (x : Body α) (f : α → Body β) :
    (x >>= f).run answer = x.run answer >>= fun a => (f a).run answer := by
  show (x.bind f).run answer = _
  induction x with
  | done result => cases result <;> rfl
  | request i next ih => exact ih _
  | announce next ih => exact ih

/-- The value that a body comes to on given operands says which values it gives. -/
theorem yields_run (answer : Nat → Except EvalError String) :
    Yields fun x a => x.run answer = .ok a where
  done h := h
  bind {α β x f b} h := by
    rw [run_bind] at h
    cases hx : x.run answer with
    | error e =>
      rw [hx] at h
      cases h
    | ok a =>
      rw [hx] at h
      exact ⟨a, rfl, h⟩

/-- A body that goes on asks for what its first part asks for. -/
theorem Asks.bind_left {x : Body α} {i : Nat} (h : x.Asks answer i) (f : α → Body β) :
    (x >>= f).Asks answer i := by
  show (x.bind f).Asks answer i
  induction h with
  | here => exact .here
  | later h ih => exact .later ih
  | announce h ih => exact .announce ih

/-- It asks for what the second part asks for, once the first has a value. -/
theorem Asks.bind_right {x : Body α} {f : α → Body β} {a : α} {i : Nat}
    (hx : x.run answer = .ok a) (h : (f a).Asks answer i) : (x >>= f).Asks answer i := by
  show (x.bind f).Asks answer i
  induction x with
  | done result =>
    cases hx
    exact h
  | request i next ih => exact .later (ih _ hx)
  | announce next ih => exact .announce (ih hx)

/-- The body fails of its own accord: with an error, although none of the operands that it asks for
does. -/
structure Throws (answer : Nat → Except EvalError String) (x : Body α) (e : EvalError) : Prop where
  run : x.run answer = .error e
  asked : ∀ i, x.Asks answer i → ∃ t, answer i = .ok t

/-- A body that goes on fails in one of its parts. -/
theorem Throws.of_bind {x : Body α} {f : α → Body β} (h : (x >>= f).Throws answer e) :
    x.Throws answer e ∨ ∃ a, x.run answer = .ok a ∧ (f a).Throws answer e := by
  have hrun := h.run
  rw [run_bind] at hrun
  cases hx : x.run answer with
  | error e' =>
    rw [hx] at hrun
    cases hrun
    exact .inl ⟨hx, fun i hi => h.asked i (hi.bind_left f)⟩
  | ok a =>
    rw [hx] at hrun
    exact .inr ⟨a, rfl, hrun, fun i hi => h.asked i (.bind_right hx hi)⟩

/-- A body that passes errors on ends with the error of an operand, or fails of its own accord. -/
theorem Propagates.error_cases {x : Body α} (h : x.Propagates) (hrun : x.run answer = .error e) :
    (∃ i, x.Asks answer i ∧ answer i = .error e) ∨ x.Throws answer e := by
  induction h with
  | done result => exact .inr ⟨hrun, fun i hi => nomatch hi⟩
  | announce h ih =>
    rcases ih hrun with ⟨i, hasks, hi⟩ | hthrows
    · exact .inl ⟨i, .announce hasks, hi⟩
    · refine .inr ⟨hthrows.run, fun i hi => ?_⟩
      cases hi with
      | announce hi => exact hthrows.asked i hi
  | @request i next error ok ih =>
    replace hrun : (next (answer i)).run answer = .error e := hrun
    cases hi : answer i with
    | error e' =>
      rw [hi, error] at hrun
      cases hrun
      exact .inl ⟨i, .here, hi⟩
    | ok t =>
      rw [hi] at hrun
      rcases ih t hrun with ⟨j, hasks, hj⟩ | hthrows
      · exact .inl ⟨j, .later (hi ▸ hasks), hj⟩
      · refine .inr ⟨?_, fun j hj => ?_⟩
        · rw [run, hi]
          exact hrun
        · cases hj with
          | here => exact ⟨t, hi⟩
          | later hj => exact hthrows.asked j (hi ▸ hj)

end Body

/-- A body comes to what its operands make of it. -/
theorem Run.result_ofBody (operand : Nat → Run String) (start : Event) (body : Body α) :
    (ofBody operand start body).result = body.run fun i => (operand i).result := by
  induction body with
  | done result => rfl
  | request i next ih => exact ih _
  | announce next ih => exact ih

/-! ## Errors that are accounted for -/

/-- The error is of the kind for functions, or it says that the text of an operand is not taken. -/
def EvalError.AccountsFor (Unfit : String → Anomaly → Prop)
    (answer : Nat → Except EvalError String) (e : EvalError) : Prop :=
  e.kind = .functionError ∨
    e.kind = .typeMismatch ∧ ∃ i t, answer i = .ok t ∧ Unfit t e.anomaly

/-- The function passes errors of its operands on. Of its own accord it fails with errors of the
kind for functions, or for the text of an operand, as `Unfit` says. -/
structure Function.Accountable (Unfit : String → Anomaly → Prop) (f : Function) : Prop where
  propagates : f.Propagates
  own : ∀ count answer e, (f.body count).Throws answer e → e.AccountsFor Unfit answer

/-- What is put together from accessors fails of its own accord for misread texts only. -/
theorem Body.closed_accountsFor (answer : Nat → Except EvalError String) :
    Closed (fun x a => x.run answer = .ok a)
      (fun x => ∀ e, x.Throws answer e → e.AccountsFor Misread answer) where
  yields := yields_run answer
  pure a e h := nomatch h.run
  refuse {α i t anomaly} ht hmisread e h := by
    cases h.run
    exact .inr ⟨hmisread.kind_eq, i, t, ht, hmisread⟩
  text i e h := by
    obtain ⟨t, ht⟩ := h.asked i .here
    cases ht.symm.trans h.run
  started e h := nomatch h.run
  bind hx hf e h := by
    rcases h.of_bind with h | ⟨a, ha, h⟩
    · exact hx e h
    · exact hf a ha e h

namespace Function

/-- The result is no error, or one of the kind for functions. -/
def FailsPlainly (r : Except EvalError String) : Prop :=
  ∀ e, r = .error e → e.kind = .functionError

/-- A result that is an error of the kind for functions is accounted for. -/
theorem FailsPlainly.done {r : Except EvalError String} (h : FailsPlainly r) :
    ∀ e, (Body.done r).Throws answer e → e.AccountsFor Misread answer :=
  fun e he => .inl (h e he.run)

/-- Eager functions account for their errors if these are of the kind for functions. -/
theorem accountable_eager (name : String) (arity : Arity)
    {f : List String → Except EvalError String} (hf : ∀ ts, FailsPlainly (f ts)) :
    (eager name arity f).Accountable Misread :=
  ⟨propagates_eager name arity f, fun count answer =>
    (Body.closed_accountsFor answer).eager name arity (fun ts => (hf ts).done) count⟩

/-- So do eager functions that announce themselves. -/
theorem accountable_announced (name : String) (arity : Arity)
    {f : List String → Except EvalError String} (hf : ∀ ts, FailsPlainly (f ts)) :
    (announced name arity f).Accountable Misread :=
  ⟨propagates_announced name arity f, fun count answer =>
    (Body.closed_accountsFor answer).announced name arity (fun ts => (hf ts).done) count⟩

/-- Functions with typed parameters account for their errors if those of the implementation are of
the kind for functions. -/
theorem accountable_typed (name : String) {params : List ParamType}
    {f : ParamType.Implementation params}
    (hf : ∀ r, ParamType.Implementation.Gives params f r → FailsPlainly r) :
    (typed name params f).Accountable Misread :=
  ⟨propagates_typed name params f, fun count answer =>
    (Body.closed_accountsFor answer).typed name (fun r hr => (hf r hr).done) count⟩

/-- Scripts account for their errors, which are those of texts that are not taken. -/
theorem accountable_scripted (name : String) (arity : Arity) (steps : List Step) :
    (scripted name arity steps).Accountable Misread :=
  ⟨propagates_scripted name arity steps, fun count answer =>
    (Body.closed_accountsFor answer).scripted name arity steps count⟩

/-- All builtin functions account for their errors. -/
theorem accountable_builtin {f : Function} (hf : f ∈ builtins) : f.Accountable Misread :=
  ⟨propagates_builtin hf, fun count answer =>
    (Body.closed_accountsFor answer).builtin hf count⟩

end Function

/-- All functions of the registry account for their errors. -/
def Registry.Accountable (Unfit : String → Anomaly → Prop) (r : Registry) : Prop :=
  r.All (Function.Accountable Unfit)

/-- All functions of the builtin registry account for their errors. -/
theorem Registry.accountable_builtins : builtins.Accountable Misread :=
  all_empty.registerAll fun _ => Function.accountable_builtin

end TagTemplate
