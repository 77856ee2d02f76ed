/-!
# Spans

A span is a range of byte offsets into the UTF-8 text of a source.
-/

namespace TexMath

/-- The bytes from `start` up to, and without, `stop`. -/
structure Span where
  start : Nat := 0
  stop : Nat := 0
deriving DecidableEq, Repr, Inhabited

namespace Span

def point (offset : Nat) : Span := ⟨offset, offset⟩

def cover (a b : Span) : Span := ⟨min a.start b.start, max a.stop b.stop⟩

/-- Holds of a span without bytes, also of one whose ends are in the wrong order. -/
def isEmpty (a : Span) : Bool := a.stop ≤ a.start

theorem cover_comm (a b : Span) : a.cover b = b.cover a := by
  simp [cover, Nat.min_comm, Nat.max_comm]

theorem cover_self (a : Span) : a.cover a = a := by
  simp [cover]

theorem isEmpty_point (offset : Nat) : (point offset).isEmpty = true := by
  simp [point, isEmpty]

end Span

end TexMath
