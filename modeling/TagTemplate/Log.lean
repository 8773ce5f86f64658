import TagTemplate.Evaluate.Run
import TagTemplate.Compile

/-!
# The log

What compiling and evaluating report to those who follow the log: each compilation with its outcome,
and each degradation of a lenient evaluation.
-/

namespace TagTemplate

/-- An entry of the log. -/
inductive LogEntry
  /-- A source of `bytes` bytes was compiled. -/
  | compiled (bytes nodes depth : Nat)
  /-- A source was refused. -/
  | compileFailed (code : String) (offset : Nat)
  /-- A call counts as empty text. -/
  | callDegraded (function message : String)
  /-- A field counts as empty text. -/
  | fieldDegraded (field : String)
deriving DecidableEq

namespace LogEntry

/-- The importance of an entry. -/
def level : LogEntry → String
  | compiled _ _ _ | compileFailed _ _ => "DEBUG"
  | callDegraded _ _ | fieldDegraded _ => "TRACE"

/-- The headline of an entry. -/
def message : LogEntry → String
  | compiled _ _ _ => "compiled template"
  | compileFailed _ _ => "template failed to compile"
  | callDegraded _ _ => "call degraded to empty text"
  | fieldDegraded _ => "field value has no text form, rendering empty"

/-- The entry for a compilation. -/
def ofCompile (source : String) : Except CompileError Template → LogEntry
  | .ok t => compiled source.utf8ByteSize t.nodeCount t.depth
  | .error e => compileFailed e.reason.code e.offset

/-- The entry for an event of an evaluation, if it is one that the log shows. -/
def ofEvent? : Event → Option LogEntry
  | .callDegraded function message => some (callDegraded function message)
  | .fieldDegraded field => some (fieldDegraded field)
  | .lookup _ | .call _ _ => none

end LogEntry

/-- The entries for an evaluation. -/
def Run.log {α : Type} (x : Run α) : List LogEntry :=
  x.events.filterMap LogEntry.ofEvent?

end TagTemplate
