import TagTemplate.Text.Cased
import TagTemplate.Text.CaseTable

/-!
# Upper and lower case

The full, language-independent case mappings. A character maps to one or more characters by the
tables of `TagTemplate.Text.CaseTable`; only the capital sigma looks at its surroundings, because at
the end of a word its lower case is the final sigma.
-/

namespace TagTemplate.Text

/-- The images of a character under a list of expansions and a list of runs; a character that
neither mentions is its own image. -/
def mapCase (expansions : List (Nat × List Nat)) (runs : List CaseRun) (c : Char) : List Char :=
  match expansions.lookup c.toNat with
  | some codes => codes.map Char.ofNat
  | none => [((runs.findSome? fun r => r.apply? c.toNat).map Char.ofNat).getD c]

/-- The upper case of a character. -/
def upperChar (c : Char) : List Char :=
  mapCase upperExpansions upperRuns c

/-- The lower case of a character, away from the end of a word. -/
def lowerChar (c : Char) : List Char :=
  mapCase lowerExpansions lowerRuns c

/-- The text in upper case. -/
def toUpper (s : String) : String :=
  .ofList (s.toList.flatMap upperChar)

/-- Is the first character that case does not ignore a cased one? -/
def meetsCased (cs : List Char) : Bool :=
  match cs.dropWhile isCaseIgnorable with
  | c :: _ => isCased c
  | [] => false

/-- The lower case of `cs`, where `before` holds the characters in front of them, nearest first. A
capital sigma with a cased character before it and none after it, in both directions past the
characters that case ignores, ends a word. -/
def lowerChars (before : List Char) : List Char → List Char
  | [] => []
  | c :: cs =>
    let image :=
      if c = 'Σ' then
        if meetsCased before && !meetsCased cs then ['ς'] else ['σ']
      else
        lowerChar c
    image ++ lowerChars (c :: before) cs

/-- The text in lower case. -/
def toLower (s : String) : String :=
  .ofList (lowerChars [] s.toList)

end TagTemplate.Text
