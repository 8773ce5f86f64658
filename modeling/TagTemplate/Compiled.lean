import TagTemplate.Compile

/-!
# Templates with their sources

A compiled template kept together with the source text it comes from.
-/

namespace TagTemplate

/-- A source text and its template. -/
structure Compiled where
  source : String
  template : Template
deriving DecidableEq

/-- Compiles a source text and keeps it. -/
def Compiled.ofSource (source : String) (maxDepth : Nat := defaultMaxDepth) :
    Except CompileError Compiled :=
  (compile source maxDepth).map fun template => { source, template }

end TagTemplate
