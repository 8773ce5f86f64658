import TagTemplate.Reader
import TagTemplate.Proofs.Layout

/-!
# A parser by recursive descent

Templates can also be read by functions that call each other as the parts of a template contain each
other, and that write what they have read into tables at once. A sequence is read up to its end, and
what ends it is left to the caller; texts go into the tables when they are complete, and so do
sequences and lists of arguments.

Such a parser counts the open groups of an argument and the open calls. A count that is to go below
zero is a `Fault` of the parser, not of the source. The functions are given a number of steps, and
they also fail where that is not enough.
-/

namespace TagTemplate.Descent

open Reader (Limits isNameChar isEscapable)
open String (utf8Len)

/-- Where a sequence stands. -/
inductive Context
  | topLevel
  | argument
deriving DecidableEq

/-- What makes the parser stop before the end. -/
inductive Fault
  /-- The source is no template. -/
  | refused (e : CompileError)
  /-- A count was to go below zero. -/
  | underflow
  /-- There were not enough steps. -/
  | exhausted

/-- The parser between two characters. -/
structure Parser where
  /-- The characters that are not read yet. -/
  rest : List Char
  /-- The offset of the first of them. -/
  pos : Nat := 0
  /-- The tables, as far as they are written. -/
  arena : Arena := {}
  /-- The number of open calls. -/
  depth : Nat := 0

/-- The variables of the function that reads a sequence. -/
structure Locals where
  /-- The nodes that are complete. -/
  cells : List Cell := []
  /-- The text of the literal that follows them, empty if there is none yet. -/
  literal : String := ""
  /-- The offset at which that literal starts. -/
  start : Nat
  /-- The parentheses open inside this argument that belong to its text. -/
  groups : Nat := 0

/-- Takes one from a count. -/
def decrement : Nat → Except Fault Nat
  | 0 => .error .underflow
  | n + 1 => .ok n

namespace Parser

/-- Moves past characters. -/
def skip (p : Parser) (cs : List Char) (rest : List Char) : Parser :=
  { p with rest, pos := p.pos + utf8Len cs }

/-- Moves past the characters of a name. -/
def takeName (p : Parser) : String × Parser :=
  let name := p.rest.takeWhile isNameChar
  (.ofList name, p.skip name (p.rest.dropWhile isNameChar))

/-! ## Writing the tables -/

/-- Takes over the tables with `amount` more entries beside the `used` ones, if the capacity admits
them. -/
def store (limits : Limits) (p : Parser) (used amount : Nat) (stored : Range × Arena) :
    Except Fault (Range × Parser) :=
  match limits.reserve used amount p.pos with
  | .ok _ => .ok (stored.1, { p with arena := stored.2 })
  | .error e => .error (.refused e)

/-- Writes a text or name. -/
def pushText (limits : Limits) (p : Parser) (text : String) : Except Fault (Range × Parser) :=
  p.store limits p.arena.usage.text text.utf8ByteSize (p.arena.pushText text)

/-- Writes a sequence. -/
def finishSeq (limits : Limits) (p : Parser) (cells : List Cell) :
    Except Fault (Range × Parser) :=
  p.store limits p.arena.usage.nodes cells.length (p.arena.pushCells cells)

/-- Writes the list of the arguments of a call. -/
def finishArgs (limits : Limits) (p : Parser) (args : List Range) :
    Except Fault (Range × Parser) :=
  p.store limits p.arena.usage.args args.length (p.arena.pushArgs args)

/-! ## Parts without parts -/

/-- Ends the growing literal, if there is one, and makes it a node. -/
def flushLiteral (limits : Limits) (p : Parser) (v : Locals) : Except Fault (Locals × Parser) :=
  if v.literal = "" then
    .ok (v, p)
  else do
    let (text, p) ← p.pushText limits v.literal
    .ok ({ v with cells := v.cells ++ [.literal text ⟨v.start, p.pos⟩], literal := "" }, p)

/-- Reads an escape; `rest` is what follows the backslash. -/
def escape (p : Parser) (v : Locals) (rest : List Char) : Except Fault (Locals × Parser) :=
  match rest with
  | [] => .error (.refused (.danglingEscape p.pos))
  | c :: more =>
    let literal := if isEscapable c then v.literal else v.literal.push '\\'
    .ok ({ v with literal := literal.push c }, p.skip ['\\', c] more)

/-- Reads a field reference; `rest` is what follows its `%`. -/
def field (limits : Limits) (p : Parser) (rest : List Char) : Except Fault (Cell × Parser) :=
  let start := p.pos
  let (name, p) := (p.skip ['%'] rest).takeName
  match p.rest with
  | [] => .error (.refused (.unterminatedField start))
  | c :: more =>
    if c = '%' then
      if name = "" then
        .error (.refused (.emptyField start))
      else do
        let (name, p) ← (p.skip ['%'] more).pushText limits name
        .ok (.field name ⟨start, p.pos⟩, p)
    else if '%' ∈ more then
      .error (.refused (.invalidIdentifier c p.pos))
    else
      .error (.refused (.unterminatedField start))

end Parser

/-- Takes a character into the growing literal, with so many groups open behind it. -/
def Locals.keep (v : Locals) (c : Char) (groups : Nat) : Locals :=
  { v with literal := v.literal.push c, groups }

/-! ## Parts with parts -/

mutual

/-- Reads a sequence from within it on, up to its end. -/
def sequence (limits : Limits) (context : Context) :
    Nat → Parser → Locals → Except Fault (List Cell × Parser)
  | 0, _, _ => .error .exhausted
  | steps + 1, p, v =>
    match p.rest with
    | [] => do
      let (v, p) ← p.flushLiteral limits v
      .ok (v.cells, p)
    | c :: rest =>
      if c = '%' then do
        let (v, p) ← p.flushLiteral limits v
        let (cell, p) ← p.field limits rest
        sequence limits context steps p { v with cells := v.cells ++ [cell], start := p.pos }
      else if c = '$' then do
        let (v, p) ← p.flushLiteral limits v
        let (cell, p) ← call limits steps p rest
        sequence limits context steps p { v with cells := v.cells ++ [cell], start := p.pos }
      else if c = '\\' then do
        let (v, p) ← p.escape v rest
        sequence limits context steps p v
      else if (c = ',' ∨ c = ')') ∧ context = .argument ∧ v.groups = 0 then do
        let (v, p) ← p.flushLiteral limits v
        .ok (v.cells, p)
      else if c = '(' ∧ context = .argument then
        sequence limits context steps (p.skip [c] rest) (v.keep c (v.groups + 1))
      else if c = ')' ∧ context = .argument then do
        let groups ← decrement v.groups
        sequence limits context steps (p.skip [c] rest) (v.keep c groups)
      else
        sequence limits context steps (p.skip [c] rest) (v.keep c v.groups)

/-- Reads a call; `rest` is what follows its `$`. -/
def call (limits : Limits) : Nat → Parser → List Char → Except Fault (Cell × Parser)
  | 0, _, _ => .error .exhausted
  | steps + 1, p, rest =>
    let start := p.pos
    let (name, p) := (p.skip ['$'] rest).takeName
    if name = "" then
      .error (.refused (.emptyCall start))
    else
      match p.rest with
      | [] => .error (.refused (.unterminatedName start p.pos))
      | c :: rest =>
        if c ≠ '(' then
          .error (.refused (.expectedArgumentList start p.pos))
        else
          let p := p.skip [c] rest
          if limits.maxDepth ≤ p.depth then
            .error (.refused (.nestingTooDeep limits.maxDepth start p.pos))
          else do
            let (args, p) ← arguments limits steps start { p with depth := p.depth + 1 }
            let depth ← decrement p.depth
            let (name, p) ← { p with depth }.pushText limits name
            .ok (.call name args ⟨start, p.pos⟩, p)

/-- Reads the arguments of a call and the parenthesis that closes it; `start` is the offset of the
call's `$`. Parentheses around nothing make no argument. -/
def arguments (limits : Limits) : Nat → Nat → Parser → Except Fault (Range × Parser)
  | 0, _, _ => .error .exhausted
  | steps + 1, start, p =>
    match p.rest with
    | ')' :: rest => (p.skip [')'] rest).finishArgs limits []
    | _ => do
      let (args, p) ← argumentsFrom limits steps start p []
      p.finishArgs limits args

/-- Reads the arguments of a call from the beginning of one of them on. Whatever ends an argument
and closes no call is taken as a comma. -/
def argumentsFrom (limits : Limits) :
    Nat → Nat → Parser → List Range → Except Fault (List Range × Parser)
  | 0, _, _, _ => .error .exhausted
  | steps + 1, start, p, args => do
    let (cells, p) ← sequence limits .argument steps p { start := p.pos }
    let (seq, p) ← p.finishSeq limits cells
    let args := args ++ [seq]
    match p.rest with
    | ')' :: rest => .ok (args, p.skip [')'] rest)
    | c :: rest => argumentsFrom limits steps start (p.skip [c] rest) args
    | [] => .error (.refused (.unterminatedArguments start p.pos))

end

/-- The parser before the first character of a source. -/
def Parser.ofSource (source : String) : Parser :=
  { rest := source.toList }

/-- As many steps as reading the sequence from here on can take. -/
def Parser.steps (p : Parser) : Nat :=
  2 * p.rest.length + 1

/-- Reads the sequence that begins here. -/
def parseSequence (limits : Limits) (context : Context) (p : Parser) :
    Except Fault (List Cell × Parser) :=
  sequence limits context p.steps p { start := p.pos }

/-- Reads a template. -/
def parseTemplate (limits : Limits) (source : String) : Except Fault Template := do
  let (cells, p) ← parseSequence limits .topLevel (.ofSource source)
  let (root, p) ← p.finishSeq limits cells
  .ok { p.arena with root }

end TagTemplate.Descent
