import TagTemplate.CompileError
import TagTemplate.Node

/-!
# Reading templates

A template's source is read character by character, from left to right, by a machine that never
looks ahead. Between two characters its state says how far it has come:

* the `Mode`: in plain text, after a backslash, or inside a field reference or a function name;
* the `Draft`: the innermost unfinished sequence, with the literal that is still growing;
* the `Frame`s: the calls that are open around it, innermost first, each with its finished
  arguments and the draft it interrupted.

`State.step` takes one character in and raises the errors that no continuation of the source can
mend; `State.finish` ends the source and raises the errors of what is still open. `read` runs the
machine over a source text.
-/

namespace TagTemplate

/-- The number of calls that may stand around each other, unless a caller asks for another. -/
def defaultMaxDepth : Nat :=
  64

namespace Reader

/-! ## Limits -/

/-- The limits a template is held to. -/
structure Limits where
  /-- The greatest number of calls around each other. -/
  maxDepth : Nat := defaultMaxDepth
  /-- The greatest number of text bytes, of nodes and of arguments in one template: as many as an
  unsigned 32-bit index reaches. -/
  capacity : Nat := UInt32.size - 1

/-- Counts `amount` more entries beside the `used` ones, if the capacity admits them; `pos` is the
place to blame otherwise. -/
def Limits.reserve (limits : Limits) (used amount pos : Nat) : Except CompileError Nat :=
  if used + amount ≤ limits.capacity then
    .ok (used + amount)
  else
    .error (.templateTooLarge limits.capacity pos)

/-! ## Characters -/

/-- May the character stand in the name of a field or a function? -/
def isNameChar (c : Char) : Bool :=
  c.isAlphanum || c == '_'

/-- Does a backslash before the character stand for the character alone? -/
def isEscapable (c : Char) : Bool :=
  c == '%' || c == '$' || c == '(' || c == ')' || c == ',' || c == '\\'

/-! ## States -/

/-- A sequence that is being read. -/
structure Draft where
  /-- The nodes that are complete. -/
  nodes : Array Node := #[]
  /-- The text of the literal that follows them, empty if there is none yet. -/
  literal : String := ""
  /-- The offset at which that literal starts. -/
  start : Nat
  /-- The parentheses open inside this argument that belong to its text. -/
  groups : Nat := 0

/-- A call whose argument list is open. -/
structure Frame where
  /-- The offset of the call's `$`. -/
  start : Nat
  /-- The name of the function. -/
  name : String
  /-- The arguments that are complete. -/
  args : Array (List Node) := #[]
  /-- The sequence that the call is a part of. -/
  outer : Draft

/-- What the next character belongs to. -/
inductive Mode
  /-- The text of a sequence. -/
  | text
  /-- The escape that the backslash at `start` opens. -/
  | escape (start : Nat)
  /-- The name of the field whose `%` stands at `start`. -/
  | fieldName (start : Nat) (name : String)
  /-- A field reference that `offender`, at `offset`, has spoilt. If another `%` follows, the name
  is at fault; if none does, the `%` at `start`. -/
  | brokenField (start : Nat) (offender : Char) (offset : Nat)
  /-- The name of the function whose `$` stands at `start`. -/
  | callName (start : Nat) (name : String)
deriving DecidableEq

/-- The entries that the finished parts of a template take up. -/
structure Usage where
  text : Nat := 0
  nodes : Nat := 0
  args : Nat := 0
deriving DecidableEq

/-- The machine between two characters. -/
structure State where
  /-- The offset of the next character. -/
  pos : Nat
  mode : Mode
  draft : Draft
  frames : List Frame
  usage : Usage

/-- The machine before the first character. -/
def State.start : State :=
  { pos := 0, mode := .text, draft := { start := 0 }, frames := [], usage := {} }

namespace State

/-! ## Finishing parts -/

/-- Moves past a character. -/
def skip (st : State) (c : Char) : State :=
  { st with pos := st.pos + c.utf8Size }

/-- Takes a character into the growing literal. -/
def keep (st : State) (c : Char) : State :=
  { st.skip c with draft := { st.draft with literal := st.draft.literal.push c } }

/-- Ends the growing literal, if there is one, and makes it a node. -/
def endLiteral (limits : Limits) (st : State) : Except CompileError State :=
  if st.draft.literal = "" then
    .ok st
  else do
    let text ← limits.reserve st.usage.text st.draft.literal.utf8ByteSize st.pos
    let node := .literal st.draft.literal ⟨st.draft.start, st.pos⟩
    .ok { st with
      draft := { st.draft with nodes := st.draft.nodes.push node, literal := "" }
      usage := { st.usage with text } }

/-- Adds a finished node, which ends where the next literal starts. -/
def addNode (st : State) (node : Node) : State :=
  { st with
    mode := .text
    draft := { st.draft with nodes := st.draft.nodes.push node, start := st.pos } }

/-- Ends the current sequence and makes it an argument of the innermost call. -/
def endArgument (limits : Limits) (st : State) (frame : Frame) :
    Except CompileError (State × Frame) := do
  let st ← st.endLiteral limits
  let nodes ← limits.reserve st.usage.nodes st.draft.nodes.size st.pos
  .ok ({ st with usage := { st.usage with nodes } },
    { frame with args := frame.args.push st.draft.nodes.toList })

/-- Ends the innermost call, whose arguments are all complete, and makes it a node of the sequence
around it. -/
def endCall (limits : Limits) (st : State) (frame : Frame) (outer : List Frame) :
    Except CompileError State := do
  let args ← limits.reserve st.usage.args frame.args.size st.pos
  let text ← limits.reserve st.usage.text frame.name.utf8ByteSize st.pos
  let st := { st with
    draft := frame.outer, frames := outer, usage := { st.usage with args, text } }
  .ok (st.addNode (.call frame.name frame.args.toList ⟨frame.start, st.pos⟩))

/-- Is nothing read yet of the current sequence? -/
def atSequenceStart (st : State) : Bool :=
  st.draft.nodes.isEmpty && st.draft.literal == ""

/-! ## One character -/

/-- Takes in a character of the text of an argument. A parenthesis opens a group, in which commas
and parentheses are text; outside every group a comma ends the argument and a closing parenthesis
the call. Parentheses around nothing make no argument. -/
def stepArgument (limits : Limits) (st : State) (frame : Frame) (outer : List Frame) (c : Char) :
    Except CompileError State :=
  if c = ',' ∧ st.draft.groups = 0 then do
    let (st, frame) ← st.endArgument limits frame
    let st := st.skip c
    .ok { st with draft := { start := st.pos }, frames := frame :: outer }
  else if c = ')' ∧ st.draft.groups = 0 then do
    let (st, frame) ←
      if frame.args.isEmpty && st.atSequenceStart then .ok (st, frame)
      else st.endArgument limits frame
    (st.skip c).endCall limits frame outer
  else
    let groups :=
      if c = '(' then st.draft.groups + 1
      else if c = ')' then st.draft.groups - 1
      else st.draft.groups
    .ok ({ st with draft := { st.draft with groups } }.keep c)

/-- Takes in a character of the text of a sequence. At the top level only `%`, `$` and the backslash
are special. -/
def stepText (limits : Limits) (st : State) (c : Char) : Except CompileError State :=
  if c = '%' then do
    let st ← st.endLiteral limits
    .ok { st.skip c with mode := .fieldName st.pos "" }
  else if c = '$' then do
    let st ← st.endLiteral limits
    .ok { st.skip c with mode := .callName st.pos "" }
  else if c = '\\' then
    .ok { st.skip c with mode := .escape st.pos }
  else
    match st.frames with
    | [] => .ok (st.keep c)
    | frame :: outer => st.stepArgument limits frame outer c

/-- Takes in the character after a backslash. The backslash stays in the text if the character needs
no escape. -/
def stepEscape (st : State) (c : Char) : State :=
  let literal := if isEscapable c then st.draft.literal else st.draft.literal.push '\\'
  { st with mode := .text, draft := { st.draft with literal } }.keep c

/-- Takes in a character of the name of a field. -/
def stepFieldName (limits : Limits) (st : State) (start : Nat) (name : String) (c : Char) :
    Except CompileError State :=
  if isNameChar c then
    .ok { st.skip c with mode := .fieldName start (name.push c) }
  else if c ≠ '%' then
    .ok { st.skip c with mode := .brokenField start c st.pos }
  else if name = "" then
    .error (.emptyField start)
  else do
    let st := st.skip c
    let text ← limits.reserve st.usage.text name.utf8ByteSize st.pos
    let st := { st with usage := { st.usage with text } }
    .ok (st.addNode (.field name ⟨start, st.pos⟩))

/-- Takes in a character of the name of a function, or the parenthesis that opens its arguments. -/
def stepCallName (limits : Limits) (st : State) (start : Nat) (name : String) (c : Char) :
    Except CompileError State :=
  if isNameChar c then
    .ok { st.skip c with mode := .callName start (name.push c) }
  else if name = "" then
    .error (.emptyCall start)
  else if c ≠ '(' then
    .error (.expectedArgumentList start st.pos)
  else
    let next := st.skip c
    if limits.maxDepth ≤ st.frames.length then
      .error (.nestingTooDeep limits.maxDepth start next.pos)
    else
      .ok { next with
        mode := .text
        draft := { start := next.pos }
        frames := { start, name, outer := st.draft } :: st.frames }

/-- Takes in one character. -/
def step (limits : Limits) (st : State) (c : Char) : Except CompileError State :=
  match st.mode with
  | .text => st.stepText limits c
  | .escape _ => .ok (st.stepEscape c)
  | .fieldName start name => st.stepFieldName limits start name c
  | .brokenField _ offender offset =>
    if c = '%' then .error (.invalidIdentifier offender offset) else .ok (st.skip c)
  | .callName start name => st.stepCallName limits start name c

/-! ## The end -/

/-- Ends the source and gives the nodes of its sequence. -/
def finish (limits : Limits) (st : State) : Except CompileError (List Node) :=
  match st.mode with
  | .text =>
    match st.frames with
    | [] => do
      let st ← st.endLiteral limits
      let _ ← limits.reserve st.usage.nodes st.draft.nodes.size st.pos
      .ok st.draft.nodes.toList
    | frame :: _ => do
      let _ ← st.endArgument limits frame
      .error (.unterminatedArguments frame.start st.pos)
  | .escape start => .error (.danglingEscape start)
  | .fieldName start _ => .error (.unterminatedField start)
  | .brokenField start _ _ => .error (.unterminatedField start)
  | .callName start name =>
    .error (if name = "" then .emptyCall start else .unterminatedName start st.pos)

end State

/-- Reads the nodes of a template from its source text. -/
def read (limits : Limits) (source : String) : Except CompileError (List Node) := do
  let st ← source.toList.foldlM (State.step limits) State.start
  st.finish limits

end Reader

end TagTemplate
