/-!
# Spans of source text

Every node of a template and every error points at the source text it stems from. Offsets count the
bytes of the source in UTF-8.
-/

namespace TagTemplate

/-- A range of byte offsets, from `start` to just before `stop`. -/
structure Span where
  start : Nat
  stop : Nat
deriving DecidableEq

namespace Span

/-- The span of one byte at an offset. -/
def single (offset : Nat) : Span :=
  ⟨offset, offset + 1⟩

/-- The number of bytes covered; none if the ends are the wrong way round. -/
def length (s : Span) : Nat :=
  s.stop - s.start

/-- Does the span cover nothing? -/
def isEmpty (s : Span) : Bool :=
  s.length == 0

end Span

end TagTemplate
