import TagTemplate.Compiled
import TagTemplate.Evaluate.Template

/-!
# Workspaces

A workspace is what somebody who tries out templates has at hand: named templates, the record they
are evaluated against, copies of records kept under names, and a registry.
-/

namespace TagTemplate

/-- Templates, records and functions at hand. -/
structure Workspace where
  templates : Std.TreeMap String Compiled := {}
  record : FieldMap := .empty
  saved : Std.TreeMap String FieldMap := {}
  registry : Registry := .builtins

namespace Workspace

/-- The workspace at the start: nothing but the builtin functions. -/
def empty : Workspace :=
  {}

/-- The template of a name. -/
def template? (w : Workspace) (name : String) : Option Compiled :=
  w.templates[name]?

/-- Compiles a source text and keeps it under a name. A text that does not compile changes
nothing. -/
def compile (w : Workspace) (name source : String) (maxDepth : Nat := defaultMaxDepth) :
    Except CompileError (Compiled × Workspace) :=
  (Compiled.ofSource source maxDepth).map fun c =>
    (c, { w with templates := w.templates.insert name c })

/-- Evaluates the template of a name against the record, if there is one. -/
def evaluate (w : Workspace) (name : String) (options : EvalOptions) : Option (Run String) :=
  (w.template? name).map fun c =>
    c.template.evaluate { record := w.record.get?, registry := w.registry, options }

/-- Are the templates of two names equal? Two names without template count as equal. -/
def sameTemplate (w : Workspace) (a b : String) : Bool :=
  w.template? a == w.template? b

/-- Puts a value into a field of the record. -/
def setField (w : Workspace) (field : String) (value : Value) : Workspace :=
  { w with record := w.record.insert field value }

/-- Removes a field of the record. -/
def removeField (w : Workspace) (field : String) : Workspace :=
  { w with record := w.record.erase field }

/-- Keeps a copy of the record under a name. -/
def save (w : Workspace) (name : String) : Workspace :=
  { w with saved := w.saved.insert name w.record }

/-- Does the record equal the copy kept under a name, if there is one? -/
def sameRecord (w : Workspace) (name : String) : Option Bool :=
  w.saved[name]?.map fun m => m.same w.record

/-- Adds a function to the registry. -/
def register (w : Workspace) (f : Function) : Workspace :=
  { w with registry := w.registry.register f }

end Workspace

end TagTemplate
