import TagTemplate.Text.Extending
import TagTemplate.Text.Hidden

/-!
# Quoted text

Messages quote the text they complain about. A quotation shows visible characters as they are,
uses the short escapes `\0`, `\t`, `\r`, `\n` and `\\`, puts a backslash before its own quotation
mark, and writes every other character as its code point in braces, so that the quotation is one
line and leaves no doubt about what it holds.
-/

namespace TagTemplate.Text

/-- A code point in lower case hexadecimal digits, without leading zeros. -/
def hexDigits (code : Nat) : List Char :=
  Nat.toDigits 16 code

/-- A character as its code point in braces. -/
def codeEscape (c : Char) : List Char :=
  ['\\', 'u', '{'] ++ hexDigits c.toNat ++ ['}']

/-- A character as it stands between two quotation marks `mark`. -/
def quoteChar (mark c : Char) : List Char :=
  if c = '\x00' then ['\\', '0']
  else if c = '\t' then ['\\', 't']
  else if c = '\r' then ['\\', 'r']
  else if c = '\n' then ['\\', 'n']
  else if c = '\\' then ['\\', '\\']
  else if c = mark then ['\\', c]
  else if isExtending c || isHidden c then codeEscape c
  else [c]

/-- A text between double quotation marks. -/
def quoted (s : String) : String :=
  .ofList (['"'] ++ s.toList.flatMap (quoteChar '"') ++ ['"'])

/-- A character between single quotation marks. -/
def quotedChar (c : Char) : String :=
  .ofList (['\''] ++ quoteChar '\'' c ++ ['\''])

end TagTemplate.Text
