import TagTemplate.Proofs.Accessors

/-!
# Functions that pass errors on

A function passes errors on if an error of an operand ends it with that very error
(`Body.Propagates`). It may still ask for any operands in any order, and fail in ways of its own.
The accessors for operands pass errors on, and so do all functions that are put together from them:
eager functions, functions with typed parameters, scripts, and the builtin functions.
-/

namespace TagTemplate

namespace Body

variable {α β : Type}

/-- An error of an operand ends the body with that error. -/
inductive Propagates : Body α → Prop
  | done (result : Except EvalError α) : Propagates (.done result)
  | request {i : Nat} {next : Except EvalError String → Body α}
      (error : ∀ e, next (.error e) = .done (.error e)) (ok : ∀ t, Propagates (next (.ok t))) :
      Propagates (.request i next)
  | announce {next : Body α} (h : Propagates next) : Propagates (.announce next)

/-- A body that passes errors on may be continued by bodies that do. -/
theorem Propagates.bind {x : Body α} {f : α → Body β} (hx : x.Propagates)
    (hf : ∀ a, x.MayGive a → (f a).Propagates) : (x >>= f).Propagates := by
  show (x.bind f).Propagates
  induction hx with
  | done result =>
    cases result with
    | ok a => exact hf a (.done a)
    | error e => exact .done _
  | request error ok ih =>
    refine .request (fun e => ?_) fun t => ih t fun a ha => hf a (.request ha)
    rw [error, Body.bind]
  | announce h ih => exact .announce (ih fun a ha => hf a (.announce ha))

/-- Bodies that pass errors on make up bodies that pass errors on. -/
theorem closed_propagates : Closed MayGive Propagates where
  yields := yields_mayGive
  pure _ := .done _
  refuse _ _ := .done _
  text _ := .request (fun _ => rfl) fun _ => .done _
  started := .announce (.done _)
  bind := .bind

end Body

/-! ## Families of functions -/

/-- The function passes errors of its operands on. -/
def Function.Propagates (f : Function) : Prop :=
  ∀ count, (f.body count).Propagates

namespace Function

open Body

/-- Eager functions pass errors on. -/
theorem propagates_eager (name : String) (arity : Arity)
    (f : List String → Except EvalError String) : (eager name arity f).Propagates :=
  closed_propagates.eager name arity fun _ => .done _

/-- Eager functions that announce themselves pass errors on. -/
theorem propagates_announced (name : String) (arity : Arity)
    (f : List String → Except EvalError String) : (announced name arity f).Propagates :=
  closed_propagates.announced name arity fun _ => .done _

/-- Functions with typed parameters pass errors on. -/
theorem propagates_typed (name : String) (params : List ParamType)
    (f : ParamType.Implementation params) : (typed name params f).Propagates :=
  closed_propagates.typed name fun _ _ => .done _

/-- Scripts pass errors on. -/
theorem propagates_scripted (name : String) (arity : Arity) (steps : List Step) :
    (scripted name arity steps).Propagates :=
  closed_propagates.scripted name arity steps

/-- All builtin functions pass errors on, also the conditional ones. -/
theorem propagates_builtin {f : Function} (hf : f ∈ builtins) : f.Propagates :=
  closed_propagates.builtin hf

end Function

/-! ## Registries -/

/-- A call reaches the function of its name. -/
theorem Registry.get?_of_resolve {r : Registry} {name : String} {count : Nat} {f : Function}
    (h : r.resolve name count = .ok f) : r.get? name = some f := by
  unfold resolve at h
  split at h
  · cases h
  · next g hg =>
    split at h
    · cases h
      exact hg
    · cases h

/-- All functions of the registry pass errors of their operands on. -/
def Registry.Propagates (r : Registry) : Prop :=
  ∀ name f, r.get? name = some f → f.Propagates

namespace Registry

/-- No functions pass errors on. -/
theorem propagates_empty : empty.Propagates :=
  all_empty

/-- To register functions that pass errors on leaves a registry of such functions. -/
theorem Propagates.registerAll {r : Registry} {fs : List Function} (hr : r.Propagates)
    (hfs : ∀ f ∈ fs, f.Propagates) : (r.registerAll fs).Propagates :=
  All.registerAll hr hfs

/-- The builtin functions pass errors on. -/
theorem propagates_builtins : builtins.Propagates :=
  propagates_empty.registerAll fun _ => Function.propagates_builtin

end Registry

end TagTemplate
