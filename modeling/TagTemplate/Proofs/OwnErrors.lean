import TagTemplate.Evaluate.Run
import TagTemplate.Proofs.Accessors

/-!
# Errors that functions do not make up

A function that does something about the errors of its operands may end with any error, also with
one of a kind that none of its operands gave. `Body.Avoids` says of a kind of errors that a body
ends with it only if an operand did. What the library has to offer fails of its own accord only for
texts that do not convert, so it avoids every other kind (`Body.closed_avoids`,
`Registry.avoids_builtins`); a function that its host implements avoids the kinds that the
implementation does not give.
-/

namespace TagTemplate

variable {α β : Type} {kind : AnomalyKind}

/-- The result is no error of the kind. -/
def Lacks (kind : AnomalyKind) (r : Except EvalError α) : Prop :=
  ∀ e, r = .error e → e.kind ≠ kind

/-- A value is no error. -/
theorem lacks_ok (a : α) : Lacks kind (.ok a) :=
  fun _ h => nomatch h

/-- An error of another kind is not of the kind. -/
theorem lacks_error {e : EvalError} (h : e.kind ≠ kind) :
    Lacks kind (.error e : Except EvalError α) := by
  intro e' h'
  cases h'
  exact h

namespace Body

/-- The body ends with an error of the kind only if an operand does. -/
inductive Avoids (kind : AnomalyKind) : Body α → Prop
  | done {result : Except EvalError α} (h : Lacks kind result) : Avoids kind (.done result)
  | request {i : Nat} {next : Except EvalError String → Body α}
      (h : ∀ r, Lacks kind r → Avoids kind (next r)) : Avoids kind (.request i next)
  | announce {next : Body α} (h : Avoids kind next) : Avoids kind (.announce next)

/-- A body that avoids errors of a kind may be continued by bodies that do. -/
theorem Avoids.bind {x : Body α} {f : α → Body β} (hx : x.Avoids kind)
    (hf : ∀ a, x.MayGive a → (f a).Avoids kind) : (x >>= f).Avoids kind := by
  show (x.bind f).Avoids kind
  induction hx with
  | @done result h =>
    cases result with
    | ok a => exact hf a (.done a)
    | error e => exact .done (lacks_error (h e rfl))
  | request h ih => exact .request fun r hr => ih r hr fun a ha => hf a (.request ha)
  | announce h ih => exact .announce (ih fun a ha => hf a (.announce ha))

/-- Of its own accord a body that is put together from accessors fails only for texts that do not
convert. -/
theorem closed_avoids (hkind : kind ≠ .typeMismatch) : Closed MayGive (Avoids kind) where
  yields := yields_mayGive
  pure a := .done (lacks_ok a)
  refuse _ h := .done (lacks_error fun heq => hkind (heq.symm.trans h.kind_eq))
  text _ := .request fun _ h => .done h
  started := .announce (.done (lacks_ok ()))
  bind := .bind

end Body

/-- A body that avoids errors of a kind does not end with one if no operand does. -/
theorem Run.lacks_ofBody {operand : Nat → Run String} {start : Event} {body : Body α}
    (hbody : body.Avoids kind) (hop : ∀ i, Lacks kind (operand i).result) :
    Lacks kind (ofBody operand start body).result := by
  induction hbody with
  | done h => exact h
  | @request i next h ih => exact ih _ (hop i)
  | announce h ih => exact ih

/-- Pointing an error at a node does not change its kind. -/
theorem Run.lacks_locate {x : Run α} (h : Lacks kind x.result) (span : Span) :
    Lacks kind (x.locate span).result := by
  obtain ⟨events, result⟩ := x
  cases result with
  | ok a => exact lacks_ok a
  | error e => exact lacks_error (h e rfl)

/-- No function of the registry ends with an error of the kind unless an operand does. -/
def Registry.Avoids (r : Registry) (kind : AnomalyKind) : Prop :=
  r.All fun f => ∀ count, (f.body count).Avoids kind

namespace Registry

/-- No functions raise nothing. -/
theorem avoids_empty : empty.Avoids kind :=
  all_empty

/-- To register functions that do not raise the kind keeps the registry from it. -/
theorem Avoids.registerAll {r : Registry} {fs : List Function} (hr : r.Avoids kind)
    (hfs : ∀ f ∈ fs, ∀ count, (f.body count).Avoids kind) : (r.registerAll fs).Avoids kind :=
  All.registerAll hr hfs

/-- The builtin functions raise type mismatches and nothing else. -/
theorem avoids_builtins (hkind : kind ≠ .typeMismatch) : builtins.Avoids kind :=
  avoids_empty.registerAll fun _ hf => (Body.closed_avoids hkind).builtin hf

/-- A call without a function to reach fails for its name or for the number of its operands. -/
theorem kind_of_resolve {r : Registry} {name : String} {count : Nat} {anomaly : Anomaly}
    (h : r.resolve name count = .error anomaly) :
    anomaly.kind = .unknownFunction ∨ anomaly.kind = .arityMismatch := by
  unfold resolve at h
  split at h
  · cases h
    exact .inl rfl
  · split at h
    · cases h
    · cases h
      exact .inr rfl

end Registry

end TagTemplate
