import TagTemplate.Function.Body

/-!
# Observed runs

An evaluation ends with a value or an error, and on the way it looks at fields, starts functions and
passes over anomalies. A `Run` is the result together with these events in their order, so two
evaluations can be compared by what they do and not only by what they give.
-/

namespace TagTemplate

/-- Something an evaluation does that can be observed. -/
inductive Event
  /-- A field was asked for. -/
  | lookup (field : String)
  /-- A function announced its start, with the number of its operands. -/
  | call (function : String) (count : Nat)
  /-- A call failed with the message and counts as empty text. -/
  | callDegraded (function message : String)
  /-- A field's value has no text form and counts as empty text. -/
  | fieldDegraded (field : String)
deriving DecidableEq

/-- The events and the result of an evaluation. -/
structure Run (α : Type) where
  events : List Event
  result : Except EvalError α

namespace Run

variable {α β γ : Type}

/-- Continues a run with what follows its value. -/
def bind (x : Run α) (f : α → Run β) : Run β :=
  match x.result with
  | .ok a =>
    let y := f a
    ⟨x.events ++ y.events, y.result⟩
  | .error e => ⟨x.events, .error e⟩

/-- A run with a value goes on with what follows it, and one with an error ends there. -/
instance : Monad Run where
  pure a := ⟨[], .ok a⟩
  bind := bind

/-- A run that goes on with its own value is the run itself. -/
theorem bind_pure (x : Run α) : x.bind (fun a => ⟨[], .ok a⟩) = x := by
  obtain ⟨events, result⟩ := x
  cases result <;> simp [bind]

/-- It does not matter in which order parts of a run are put together. -/
theorem bind_bind (x : Run α) (f : α → Run β) (g : β → Run γ) :
    (x.bind f).bind g = x.bind fun a => (f a).bind g := by
  obtain ⟨events, result⟩ := x
  cases result with
  | error e => rfl
  | ok a => cases h : (f a).result <;> simp [bind, h]

/-- Runs obey the laws of a monad. -/
instance : LawfulMonad Run :=
  .mk' Run bind_pure (fun _ _ => rfl) bind_bind

/-- The run that ends at once with an error. -/
def fail (e : EvalError) : Run α :=
  ⟨[], .error e⟩

/-- The run that does a single thing. -/
def emit (event : Event) : Run Unit :=
  ⟨[event], .ok ()⟩

/-- Points the error of a run at a node, unless it points somewhere already. -/
def locate (x : Run α) (span : Span) : Run α :=
  { x with result := x.result.mapError (·.locate span) }

/-- The run of a function's body, where `operand` evaluates an operand and `start` is what the
function announces. An error of an operand is an answer like any other; the body decides. -/
def ofBody (operand : Nat → Run String) (start : Event) : Body α → Run α
  | .done result => ⟨[], result⟩
  | .request i next =>
    let x := operand i
    let rest := ofBody operand start (next x.result)
    ⟨x.events ++ rest.events, rest.result⟩
  | .announce next =>
    let rest := ofBody operand start next
    ⟨start :: rest.events, rest.result⟩

/-- A body that goes on is run part by part. -/
theorem ofBody_bind (operand : Nat → Run String) (start : Event) (x : Body α) (f : α → Body β) :
    ofBody operand start (x >>= f) =
      ofBody operand start x >>= fun a => ofBody operand start (f a) := by
  show ofBody operand start (x.bind f) = (ofBody operand start x).bind _
  induction x with
  | done result => cases result <;> rfl
  | request i next ih =>
    simp only [Body.bind, ofBody, ih, bind]
    split <;> simp
  | announce next ih =>
    simp only [Body.bind, ofBody, ih, bind]
    split <;> simp

/-! ## What was observed -/

/-- The fields asked for. -/
def lookups (x : Run α) : List String :=
  x.events.filterMap fun
    | .lookup field => some field
    | _ => none

/-- The functions that announced their start, with the numbers of their operands. -/
def calls (x : Run α) : List (String × Nat) :=
  x.events.filterMap fun
    | .call function count => some (function, count)
    | _ => none

/-- The degradations. -/
def degradations (x : Run α) : List Event :=
  x.events.filter fun
    | .callDegraded _ _ | .fieldDegraded _ => true
    | _ => false

end Run

end TagTemplate
