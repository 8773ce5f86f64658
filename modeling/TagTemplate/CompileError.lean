import TagTemplate.Span
import TagTemplate.Text.Quoted

/-!
# Compile errors

Why a source text is no template, where, and what the author may do about it. Each reason has a
stable code and a sentence for people. The constructors at the end build the errors that the reader
raises, each with its span and hint in one place.
-/

namespace TagTemplate

/-- Why a source text is no template. -/
inductive CompileReason
  /-- A `%` without the `%` that ends its field reference. -/
  | unterminatedField
  /-- A call that the end of the source leaves open. -/
  | unterminatedCall
  /-- A function name that no argument list follows. -/
  | expectedArgumentList
  /-- A field reference or a call without a name. -/
  | emptyIdentifier
  /-- A character that cannot stand in a field name. -/
  | invalidIdentifier (c : Char)
  /-- A backslash that ends the source. -/
  | danglingEscape
  /-- A call inside as many calls as the limit admits. -/
  | nestingTooDeep (limit : Nat)
  /-- More text, nodes or arguments than a template can hold. -/
  | templateTooLarge (limit : Nat)
deriving DecidableEq

namespace CompileReason

/-- The stable code of a reason, fit as a key of a message catalogue. -/
def code : CompileReason → String
  | unterminatedField => "unterminated-field"
  | unterminatedCall => "unterminated-call"
  | expectedArgumentList => "expected-argument-list"
  | emptyIdentifier => "empty-identifier"
  | invalidIdentifier _ => "invalid-identifier"
  | danglingEscape => "dangling-escape"
  | nestingTooDeep _ => "nesting-too-deep"
  | templateTooLarge _ => "template-too-large"

/-- The reason in words. -/
def message : CompileReason → String
  | unterminatedField => "unterminated field reference"
  | unterminatedCall => "unterminated function call"
  | expectedArgumentList => "expected '(' after function name"
  | emptyIdentifier => "empty identifier"
  | invalidIdentifier c => "invalid character " ++ Text.quotedChar c ++ " in field name"
  | danglingEscape => "dangling escape at end of input"
  | nestingTooDeep limit => "calls nested deeper than " ++ limit.repr ++ " levels"
  | templateTooLarge limit =>
    "template holds more than " ++ limit.repr ++ " text bytes, nodes or arguments"

end CompileReason

/-- A reason, the piece of source it is about, and advice where there is some. -/
structure CompileError where
  reason : CompileReason
  span : Span
  hint : Option String := none
deriving DecidableEq

namespace CompileError

/-- The offset of the offending text. -/
def offset (e : CompileError) : Nat :=
  e.span.start

/-- The error in words, with its offset. -/
def message (e : CompileError) : String :=
  e.reason.message ++ " at offset " ++ e.offset.repr

/-! ## The errors of the reader -/

/-- The advice against a `%` that was meant as text. -/
def percentHint : String :=
  "write '\\%' for a literal percent sign"

/-- The `%` at `start` never finds its partner. -/
def unterminatedField (start : Nat) : CompileError :=
  ⟨.unterminatedField, .single start, percentHint⟩

/-- The field reference at `start` is `%%`. -/
def emptyField (start : Nat) : CompileError :=
  ⟨.emptyIdentifier, ⟨start, start + 2⟩, percentHint⟩

/-- The character `c` at `offset` stands in a field name. -/
def invalidIdentifier (c : Char) (offset : Nat) : CompileError :=
  ⟨.invalidIdentifier c, ⟨offset, offset + c.utf8Size⟩,
    "field names may only contain letters, digits and '_'"⟩

/-- No function name follows the `$` at `start`. -/
def emptyCall (start : Nat) : CompileError :=
  ⟨.emptyIdentifier, .single start, "write '\\$' for a literal dollar sign"⟩

/-- The source ends after the function name from `start` to `stop`. -/
def unterminatedName (start stop : Nat) : CompileError :=
  { reason := .unterminatedCall, span := ⟨start, stop⟩ }

/-- Something else than an argument list follows the function name from `start` to `stop`. -/
def expectedArgumentList (start stop : Nat) : CompileError :=
  { reason := .expectedArgumentList, span := ⟨start, stop⟩ }

/-- The call that begins from `start` to `stop` stands inside `limit` others. -/
def nestingTooDeep (limit start stop : Nat) : CompileError :=
  { reason := .nestingTooDeep limit, span := ⟨start, stop⟩ }

/-- The argument list of the call at `start` is open at the end of the source. -/
def unterminatedArguments (start stop : Nat) : CompileError :=
  ⟨.unterminatedCall, ⟨start, stop⟩, "close the argument list with ')'"⟩

/-- The backslash at `start` ends the source. -/
def danglingEscape (start : Nat) : CompileError :=
  ⟨.danglingEscape, .single start, "write '\\\\' for a literal backslash"⟩

/-- A template would outgrow its capacity at `offset`. -/
def templateTooLarge (limit offset : Nat) : CompileError :=
  { reason := .templateTooLarge limit, span := .single offset }

end CompileError

end TagTemplate
