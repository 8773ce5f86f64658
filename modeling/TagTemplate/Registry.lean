import Std.Data.TreeMap
import TagTemplate.Function.Builtin

/-!
# Registries

A registry holds the functions that templates can call, at most one of each name. Names are resolved
when a template is evaluated.
-/

namespace TagTemplate

/-- The functions that can be called, by their names. -/
structure Registry where
  functions : Std.TreeMap String Function := {}

namespace Registry

/-- The registry without functions. -/
def empty : Registry :=
  {}

/-- Adds a function, in place of one of the same name. -/
def register (r : Registry) (f : Function) : Registry :=
  ⟨r.functions.insert f.name f⟩

/-- Adds functions one after the other. -/
def registerAll (r : Registry) (fs : List Function) : Registry :=
  fs.foldl register r

/-- The registry of the builtin functions. -/
def builtins : Registry :=
  empty.registerAll Function.builtins

/-- The function of a name. -/
def get? (r : Registry) (name : String) : Option Function :=
  r.functions[name]?

/-- The registry without functions finds none. -/
@[simp] theorem get?_empty (name : String) : empty.get? name = none := by
  simp [empty, get?]

/-- A registered function is found under its name, and every other name is as before. -/
theorem get?_register (r : Registry) (f : Function) (name : String) :
    (r.register f).get? name = if f.name = name then some f else r.get? name := by
  simp [register, get?, Std.TreeMap.getElem?_insert]

/-- Is there a function of the name? -/
def contains (r : Registry) (name : String) : Bool :=
  r.functions.contains name

/-- The names of all functions, in ascending order. -/
def names (r : Registry) : List String :=
  r.functions.keys

/-- The names of all functions as a text for developers. -/
def description (r : Registry) : String :=
  "Registry \x7b functions: [" ++ ", ".intercalate (r.names.map Text.quoted) ++ "] \x7d"

/-- The function that a call of the name with `count` operands reaches. -/
def resolve (r : Registry) (name : String) (count : Nat) : Except Anomaly Function :=
  match r.get? name with
  | none => .error (.unknownFunction name)
  | some f => if f.arity.accepts count then .ok f else .error (.arityMismatch name f.arity count)

end Registry

end TagTemplate
