import TexMath.CommandLine.Run

/-!
# Headers of reports

A report has one header.  What other libraries draw is only known to keep to that, and the plain
drawing does.
-/

namespace TexMath

/-- A report has one header, which carries the message: no line below it begins as a header does. -/
def Headed (mark message report : String) : Prop :=
  ∃ lines : List String,
    report = mark ++ message ++ "\n" ++ String.join (lines.map (· ++ "\n")) ∧
      ∀ line ∈ lines, '\n' ∉ line.toList ∧ ¬mark.toList <+: line.toList

/-- The library draws each error in the source with one header, which carries its message. -/
def CommandLine.Library.DrawsHeaders (library : Library) (mark sourceName source : String)
    (color : Bool) : Prop :=
  ∀ error : ParseError, error.span.start ≤ error.span.stop →
    error.span.stop ≤ source.utf8ByteSize →
    ∃ report, library.draw (error.notice sourceName color) source = some report ∧
      Headed mark error.message report

/-! ## The plain drawing -/

namespace Text

theorem toList_repeated (count : Nat) (c : Char) :
    (repeated count c).toList = List.replicate count c := by
  simp [repeated]

theorem newline_notMem_toDigits (n : Nat) : '\n' ∉ Nat.toDigits 10 n := by
  intro hmem
  have hdigit := Nat.isDigit_of_mem_toDigits (by decide) (by decide) hmem
  revert hdigit
  decide

theorem newline_notMem_onOneLine (chars : List Char) : '\n' ∉ (onOneLine chars).toList := by
  have hends : endsLine '\n' [] = true := by decide
  simp [onOneLine, hends]

end Text

namespace Notice

open Text

variable {notice : Notice} {source line : String}

theorem head?_of_mem_frame (h : line ∈ notice.frame source) :
    line.toList.head? = some ' ' ∨ line.toList.head? = some '─' := by
  simp only [frame, List.mem_cons, List.not_mem_nil, or_false] at h
  rcases h with rfl | rfl | rfl | rfl | rfl | rfl
  all_goals simp [toList_repeated, List.replicate_succ]

theorem newline_notMem_of_mem_frame (h : line ∈ notice.frame source) : '\n' ∉ line.toList := by
  simp only [frame, List.mem_cons, List.not_mem_nil, or_false] at h
  rcases h with rfl | rfl | rfl | rfl | rfl | rfl
  all_goals
    simp [toList_repeated, Position.text, newline_notMem_toDigits, newline_notMem_onOneLine]
  split <;> simp [toList_repeated]

theorem drawn_headed (notice : Notice) (source : String) :
    Headed (heading notice.color) notice.message (notice.drawn source) := by
  refine ⟨notice.frame source, rfl, fun line hline => ?_⟩
  refine ⟨newline_notMem_of_mem_frame hline, fun hprefix => ?_⟩
  have hhead : line.toList.head? = (heading notice.color).toList.head? := by
    obtain ⟨rest, hrest⟩ := hprefix
    rw [← hrest]
    cases notice.color <;> rfl
  have hborder := hhead ▸ head?_of_mem_frame hline
  revert hborder
  cases notice.color <;> decide

end Notice

theorem CommandLine.Library.plain_drawsHeaders (sourceName source : String) (color : Bool) :
    plain.DrawsHeaders (Notice.heading color) sourceName source color := fun error _ _ =>
  ⟨_, rfl, (error.notice sourceName color).drawn_headed source⟩

end TexMath
