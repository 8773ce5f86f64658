import TagTemplate.EvalError
import TagTemplate.Number.Integer
import TagTemplate.Number.Reading
import TagTemplate.Text.Blank

/-!
# Function bodies

A function gets its operands unevaluated and asks for those it needs, when it needs them, as often
as it likes. A `Body` is such a computation: a tree of requests, each with what follows for every
answer it may get. Nothing is evaluated when a body is built, so what a function looks at, and in
which order, can be read off its body.

The accessors below turn an operand into text, truth, an integer or a number. An error of an operand
ends the body that uses them.
-/

namespace TagTemplate

/-- A computation that may ask for operands and ends with a value or an error. -/
inductive Body (α : Type)
  /-- The end. -/
  | done (result : Except EvalError α)
  /-- A request for the text of an operand, which may itself fail. -/
  | request (index : Nat) (next : Except EvalError String → Body α)
  /-- A note that the function has started on its work, for those who watch the evaluation. -/
  | announce (next : Body α)

namespace Body

variable {α β γ : Type}

/-- Continues a body with what follows its value. -/
def bind : Body α → (α → Body β) → Body β
  | done (.ok a), f => f a
  | done (.error e), _ => done (.error e)
  | request i next, f => request i fun answer => (next answer).bind f
  | announce next, f => announce (next.bind f)

/-- A body with a value goes on with what follows it, and one with an error ends there. -/
instance : Monad Body where
  pure a := done (.ok a)
  bind := bind

/-- A body that goes on with its own value is the body itself. -/
@[simp] theorem bind_done (x : Body α) : x.bind (fun a => done (.ok a)) = x := by
  induction x with
  | done result => cases result <;> rfl
  | request i next ih => simp only [bind, ih]
  | announce next ih => simp only [bind, ih]

/-- It does not matter in which order parts of a body are put together. -/
theorem bind_bind (x : Body α) (f : α → Body β) (g : β → Body γ) :
    (x.bind f).bind g = x.bind fun a => (f a).bind g := by
  induction x with
  | done result => cases result <;> rfl
  | request i next ih => simp only [bind, ih]
  | announce next ih => simp only [bind, ih]

/-- Bodies obey the laws of a monad. -/
instance : LawfulMonad Body :=
  .mk' Body bind_done (fun _ _ => rfl) bind_bind

/-- Ends a body with an anomaly. -/
def fail (anomaly : Anomaly) : Body α :=
  done (.error { anomaly })

/-- The announcement as a step of a body. -/
def started : Body Unit :=
  announce (pure ())

/-- The text of an operand. -/
def text (i : Nat) : Body String :=
  request i done

/-- The truth of an operand: all text but the empty one is true. -/
def truth (i : Nat) : Body Bool := do
  let t ← text i
  pure (t != "")

/-- An operand as an integer, blanks around it left aside. -/
def integer (i : Nat) : Body Int64 := do
  let t ← text i
  match readInteger (Text.trimChars t.toList) with
  | .ok n => pure n
  | .error _ => fail (.typeMismatch "integer" t)

/-- An operand as a floating-point number, blanks around it left aside. -/
def number (i : Nat) : Body Binary64 := do
  let t ← text i
  match Binary64.read (Text.trimChars t.toList) with
  | some x => pure x
  | none => fail (.typeMismatch "number" t)

/-- The texts of `count` operands from `i` on, in order. -/
def textsFrom (i : Nat) : Nat → Body (List String)
  | 0 => pure []
  | count + 1 => do
    let t ← text i
    let ts ← textsFrom (i + 1) count
    pure (t :: ts)

/-- The texts of all operands, in order. -/
def texts (count : Nat) : Body (List String) :=
  textsFrom 0 count

end Body

end TagTemplate
