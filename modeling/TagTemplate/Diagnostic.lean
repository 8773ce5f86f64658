import TagTemplate.CompileError

/-!
# Diagnostics

A compile error shown together with the line of source it is about: the error in words, its place,
the line, and carets under the text at fault. Lines and columns count from one, columns in
characters.
-/

namespace TagTemplate

/-- A line and a column, both counted from one. -/
structure Location where
  line : Nat
  column : Nat
deriving DecidableEq

/-- The location after a character. -/
def Location.after (place : Location) (c : Char) : Location :=
  if c = '\n' then ⟨place.line + 1, 1⟩ else ⟨place.line, place.column + 1⟩

/-- The location reached by the characters of `cs` that begin before `offset`, where `cs` itself
begins at `pos` and at `start`. -/
def Location.walk (offset pos : Nat) (start : Location) : List Char → Location
  | [] => start
  | c :: cs =>
    if offset ≤ pos then start else Location.walk offset (pos + c.utf8Size) (start.after c) cs

/-- The location of a byte offset in a source text. -/
def Location.ofOffset (source : List Char) (offset : Nat) : Location :=
  .walk offset 0 ⟨1, 1⟩ source

/-- A finished line, given back to front, without the carriage return that may end it. -/
def finishedLine : List Char → List Char
  | '\r' :: cs => cs.reverse
  | cs => cs.reverse

/-- The lines of `cs`, the first of which begins with the characters of `current` back to front. A
line ends with a line feed, alone or after a carriage return; text after the last line feed is a
line only if there is some. -/
def linesFrom (current : List Char) : List Char → List (List Char)
  | [] => if current = [] then [] else [current.reverse]
  | c :: cs =>
    if c = '\n' then finishedLine current :: linesFrom [] cs else linesFrom (c :: current) cs

/-- A source text's line by its number, empty if there is no such line. -/
def sourceLine (source : List Char) (line : Nat) : List Char :=
  (linesFrom [] source).getD (line - 1) []

namespace CompileError

/-- A line number, moved to the right of its three columns. -/
def lineNumber (line : Nat) : String :=
  .ofList (List.replicate (3 - line.repr.length) ' ') ++ line.repr

/-- The place of an error: the template's name if it has one, its line and its column. -/
def place (name : Option String) (l : Location) : String :=
  (match name with
    | some name => name ++ ":"
    | none => "") ++ l.line.repr ++ ":" ++ l.column.repr

/-- Carets from a column on, one for each byte of the span and at least one. -/
def carets (l : Location) (span : Span) : String :=
  .ofList (List.replicate (l.column - 1) ' ' ++ List.replicate (max span.length 1) '^')

/-- The lines that show an error in its source. -/
def excerpt (e : CompileError) (source : String) (name : Option String) : List String :=
  let l := Location.ofOffset source.toList e.offset
  ["Error: " ++ e.reason.message,
    " --> " ++ place name l,
    "  |",
    lineNumber l.line ++ " | " ++ .ofList (sourceLine source.toList l.line),
    "    | " ++ carets l e.span] ++
    (e.hint.map ("  = hint: " ++ ·)).toList

/-- The text that shows an error in its source. -/
def diagnostic (e : CompileError) (source : String) (name : Option String) : String :=
  "\n".intercalate (e.excerpt source name)

end CompileError

end TagTemplate
