import TagTemplate.Text.CodeRange

/-!
# Blank characters and trimming

The property White_Space of Unicode, and the removal of blanks from both ends of a text. Operands
are trimmed so before they are read as numbers.
-/

namespace TagTemplate.Text

/-- The code points of White_Space, in ascending order. -/
def blankTable : List (Nat × Nat) :=
  [(0x0009, 0x000D), (0x0020, 0x0020), (0x0085, 0x0085), (0x00A0, 0x00A0), (0x1680, 0x1680),
    (0x2000, 0x200A), (0x2028, 0x2029), (0x202F, 0x202F), (0x205F, 0x205F), (0x3000, 0x3000)]

/-- Is the character white space? -/
def isBlank (c : Char) : Bool :=
  inTable blankTable c

/-- The characters without the blanks that end them. -/
def dropBlankEnd (cs : List Char) : List Char :=
  (cs.reverse.dropWhile isBlank).reverse

/-- The characters without the blanks at either end. -/
def trimChars (cs : List Char) : List Char :=
  dropBlankEnd (cs.dropWhile isBlank)

/-- The text without the blanks at either end. -/
def trim (s : String) : String :=
  .ofList (trimChars s.toList)

/-- To trim a text is to trim its characters. -/
@[simp] theorem toList_trim (s : String) : (trim s).toList = trimChars s.toList := by
  simp [trim]

end TagTemplate.Text
