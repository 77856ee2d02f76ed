import TexMath.Symbol.Literal

/-!
# Facts about literal characters

A character stands for one of six kinds of symbol, and its kind and nucleus give the character
back.
-/

namespace TexMath.Literal

open Text

theorem kind_mem_of_kind? {c : Char} {kind : AtomKind} (h : kind? c = some kind) :
    kind ∈ [AtomKind.ordinary, .binaryOperator, .relation, .opening, .closing, .punctuation] := by
  unfold kind? at h
  grind

theorem argumentRange_of_kind? {c : Char} {kind : AtomKind} (h : kind? c = some kind) :
    kind.argumentRange = (0, 0) := by
  have hmem := kind_mem_of_kind? h
  simp only [List.mem_cons, List.not_mem_nil, or_false] at hmem
  rcases hmem with rfl | rfl | rfl | rfl | rfl | rfl <;> rfl

theorem kind_ne_largeOperator {c : Char} {kind : AtomKind} {limits : Bool}
    (h : kind? c = some kind) : kind ≠ .largeOperator limits := by
  rintro rfl
  simpa using kind_mem_of_kind? h

theorem kind_ne_table {c : Char} {kind : AtomKind} (h : kind? c = some kind) : kind ≠ .table := by
  rintro rfl
  simpa using kind_mem_of_kind? h

end TexMath.Literal
