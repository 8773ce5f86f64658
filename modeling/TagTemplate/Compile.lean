import TagTemplate.Reader
import TagTemplate.Template.Layout

/-!
# Compiling templates

Compiling reads the tree of a template from its source and lays it out in tables. It gives the whole
template or the first error, never a part. Names of functions are not looked up, so a template may
call functions that nobody defines.
-/

namespace TagTemplate

/-- Compiles a source text within limits. -/
def compileWithin (limits : Reader.Limits) (source : String) : Except CompileError Template :=
  (Reader.read limits source).map Template.ofNodes

/-- Compiles a source text. -/
def compile (source : String) (maxDepth : Nat := defaultMaxDepth) :
    Except CompileError Template :=
  compileWithin { maxDepth } source

end TagTemplate
