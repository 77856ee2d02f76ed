import TexMath.Proofs.Grammar.Brackets
import TexMath.Proofs.Grammar.Canonical
import TexMath.Proofs.Reading.RoundTrip
import TexMath.Proofs.Token.Scans

/-!
# Formulas in slots

A source that is read alone is read as the same formula inside of a group, a fence, a script, an
argument or an index, where one more level may be opened.
-/

namespace TexMath

open Grammar Lexeme Text

namespace Formula

variable {source s t : String} {options : ReadingOptions} {formula S T : Formula}

def ReadAs (source : String) (options : ReadingOptions) (formula : Formula) : Prop :=
  ∃ found, read source options = .ok found ∧ found.alike formula = true

/-- The tokens of the source derive the formula, which is nested less deep than the bound. -/
structure Slotted (source : String) (lexemes : List Lexeme) (formula : Formula) (bound : Nat) :
    Prop where
  scans : Scans source (lexemes.map token)
  row : Row false lexemes formula
  nest : nest formula < bound

theorem exists_slotted (hexact : options.fillMissing = false)
    (h : read source options = .ok formula) :
    ∃ lexemes, Slotted source lexemes formula (options.maxDepth + 1) := by
  obtain ⟨-, hnest, lexemes, hitems, hrow⟩ :=
    (readUntilError_eq_ok_iff hexact).mp (read_eq_ok_iff.mp h)
  exact ⟨lexemes, ⟨lexemes, hitems, rfl⟩, hrow, Nat.lt_succ_of_le hnest⟩

theorem readAs_of_nucleus {lexemes : List Lexeme} {found atom : Atom}
    (hexact : options.fillMissing = false) (hscans : Scans source (lexemes.map token))
    (hrow : Row false lexemes [found]) (herase : found.erase = atom.erase)
    (hnest : atom.nest ≤ options.maxDepth) : ReadAs source options [atom] := by
  obtain ⟨others, hitems, htokens⟩ := hscans
  obtain ⟨formula, hformula, hsame⟩ := hrow.relocate htokens
  have herase : erase formula = erase [atom] := by simp [hsame, herase]
  refine ⟨formula, read_eq_ok_iff.mpr ((readUntilError_eq_ok_iff hexact).mpr
    ⟨.inr ?_, ?_, others, hitems, hformula⟩), (alike_iff _ _).mpr herase⟩
  · rw [Ne, ← erase_eq_nil, herase]
    simp
  · simpa [nest_eq_of_erase herase] using hnest

/-! ## Each kind of slot

The derivations are for lexemes without a place around those of the sources; `readAs_of_nucleus`
moves them to where the lexemes stand. -/

section

variable {lexemes others : List Lexeme}

theorem Slotted.argument {bound : Nat} (hs : Slotted s lexemes S bound) (inIndex : Bool) :
    Argument inIndex (bare .braceOpen :: lexemes ++ [bare .braceClose]) S :=
  .braced rfl hs.row rfl

theorem readAs_group (hexact : options.fillMissing = false)
    (hs : Slotted s lexemes S options.maxDepth) : ReadAs (braced s) options [.group S] := by
  have hscans := hs.scans.braced_alone
  have hrow := (@Nucleus.group false (bare .braceOpen) (bare .braceClose) _ _ rfl hs.row rfl).row
  refine readAs_of_nucleus hexact ?_ hrow ?_ (Atom.nest_group_le hs.nest)
  · simpa [bare] using hscans
  · simp [Atom.group, Atom.erase_eq]

theorem readAs_fenced (hexact : options.fillMissing = false)
    (hs : Slotted s lexemes S options.maxDepth) {l r left right : String}
    (hleft : Delimiter.Written l left (s ++ "\n" ++ "\\right" ++ right))
    (hright : Delimiter.Written r right "") :
    ReadAs ("\\left" ++ left ++ s ++ "\n" ++ "\\right" ++ right) options
      [.group S (some ⟨l, r⟩)] := by
  obtain ⟨hletter, last, hlast, hscans⟩ := hright.scans .empty
  rw [String.append_empty] at hletter hscans
  have hclosed : Scans ("\\right" ++ right) _ :=
    hscans.command "right" (by decide) fun _ => hletter
  have hbehind := hs.scans.line hclosed
  rw [← String.append_assoc] at hbehind
  -- The delimiter begins with no letter, and so it is not read as a part of the command.
  obtain ⟨hletter, first, hfirst, hscans⟩ := hleft.scans hbehind
  have hopened : Scans ("\\left" ++ _) _ :=
    hscans.command "left" (by decide) fun _ => hletter
  have hrow := (@Nucleus.fenced false (bare (.command "left")) (bare first)
    (bare (.command "right")) (bare last) _ _ _ _ _ rfl Command.find?_left hfirst hs.row rfl
    hlast).row
  refine readAs_of_nucleus hexact ?_ hrow ?_ (Atom.nest_group_le hs.nest)
  · simpa [bare, String.append_assoc] using hopened
  · simp [Atom.group, Atom.erase_eq]

theorem readAs_script (hexact : options.fillMissing = false)
    (hs : Slotted s lexemes S options.maxDepth) (which : Script) :
    ReadAs ("x" ++ which.mark ++ braced s) options
      [(Atom.symbol .ordinary "x").setScript which (some S)] := by
  have hmarked : Scans (which.mark ++ braced s) (which.token :: _) :=
    hs.scans.braced_alone.cons (by cases which <;> exact .character rfl) (by cases which <;> rfl)
  have hscans : Scans ("x" ++ _) _ := hmarked.character (c := 'x') rfl
  have hannounced : (bare which.token).token.script? = some which := by cases which <;> rfl
  let base : Atom := .symbol .ordinary "x"
  have hbase : Nucleus false [bare (.character 'x')] base :=
    @Nucleus.character false _ 'x' .ordinary rfl (by decide)
  have hscripts := Scripts.cons hannounced (rfl : base.kind.acceptsScripts = true)
    (by cases which <;> rfl) (hs.argument false) (.nil _)
  have hrow := Row.plain (.cons hbase (.nil base) hscripts .nil)
  refine readAs_of_nucleus hexact ?_ hrow ?_ ?_
  · simpa [bare, String.append_assoc] using hscans
  · cases which <;> simp [base, Atom.withScript, Atom.setScript, Atom.erase_eq]
  · refine Atom.nest_le_iff.mpr ⟨by cases which <;> simp [Atom.setScript, Atom.symbol], ?_⟩
    cases which <;> simpa [Atom.setScript, Atom.symbol, Atom.slots] using hs.nest

theorem readAs_fraction (hexact : options.fillMissing = false)
    (hs : Slotted s lexemes S options.maxDepth) (ht : Slotted t others T options.maxDepth) :
    ReadAs ("\\frac" ++ braced s ++ braced t) options
      [{ kind := .fraction true, nucleus := "", arguments := [S, T] }] := by
  have harguments := hs.scans.braced ht.scans.braced_alone
  have hscans : Scans ("\\frac" ++ _) _ := harguments.command "frac" (by decide) fun _ => by
    simp only [braced, String.append_assoc, String.toList_append]
    exact noLetter_cons (c := '\x7b') (by decide) _
  have hrow := (@Nucleus.command false (bare (.command "frac")) _ _ _ _ rfl Command.find?_frac
    (by simp) (.cons (hs.argument false) (.cons (ht.argument false) .nil)) rfl).row
  refine readAs_of_nucleus hexact ?_ hrow ?_ ?_
  · simpa [bare, String.append_assoc] using hscans
  · simp [Atom.erase_eq]
  · exact Atom.nest_le_iff.mpr ⟨by simp, by simpa [Atom.slots] using ⟨hs.nest, ht.nest⟩⟩

theorem readAs_root (hexact : options.fillMissing = false)
    (hs : Slotted s lexemes S options.maxDepth) (ht : Slotted t others T options.maxDepth)
    (hclear : Token.bracketOutside [] (lexemes.map token) = false) :
    ReadAs ("\\sqrt" ++ "[" ++ s ++ "\n" ++ "]" ++ braced t) options
      [{ kind := .radical, nucleus := "√", arguments := [T, S] }] := by
  have hindex := row_in_index_iff.mpr ⟨hs.row, hclear⟩
  have hclosed : Scans ("]" ++ _) _ := ht.scans.braced_alone.character (c := ']') rfl
  have hopened : Scans ("[" ++ _) _ := (hs.scans.line hclosed).character (c := '[') rfl
  have hscans : Scans ("\\sqrt" ++ _) _ := hopened.command "sqrt" (by decide) fun _ => by
    rw [String.toList_append]
    exact noLetter_cons (c := '[') (by decide) _
  have hrow := (@Nucleus.indexed false (bare (.command "sqrt")) (bare .bracketOpen)
    (bare .bracketClose) _ _ _ _ _ _ rfl Command.find?_sqrt rfl rfl hindex rfl
    (.cons (ht.argument false) .nil) rfl).row
  refine readAs_of_nucleus hexact ?_ hrow ?_ ?_
  · simp only [String.append_assoc] at hscans ⊢
    simpa [bare] using hscans
  · simp [Atom.erase_eq]
  · exact Atom.nest_le_iff.mpr ⟨by simp, by simpa [Atom.slots] using ⟨ht.nest, hs.nest⟩⟩

end

theorem read_in_slots (hexact : options.fillMissing = false)
    (hs : read s options = .ok S) (ht : read t options = .ok T) :
    let deeper : ReadingOptions := { options with maxDepth := options.maxDepth + 1 }
    ReadAs (braced s) deeper [.group S] ∧
    (∀ l r left right : String, Delimiter.Written l left (s ++ "\n" ++ "\\right" ++ right) →
      Delimiter.Written r right "" →
        ReadAs ("\\left" ++ left ++ s ++ "\n" ++ "\\right" ++ right) deeper
          [.group S (some ⟨l, r⟩)]) ∧
    (∀ which : Script, ReadAs ("x" ++ which.mark ++ braced s) deeper
      [(Atom.symbol .ordinary "x").setScript which (some S)]) ∧
    ReadAs ("\\frac" ++ braced s ++ braced t) deeper
      [{ kind := .fraction true, nucleus := "", arguments := [S, T] }] ∧
    (Token.bracketOutside [] (tokens s) = false →
      ReadAs ("\\sqrt" ++ "[" ++ s ++ "\n" ++ "]" ++ braced t) deeper
        [{ kind := .radical, nucleus := "√", arguments := [T, S] }]) := by
  intro deeper
  obtain ⟨lexemes, hs⟩ := exists_slotted hexact hs
  obtain ⟨others, ht⟩ := exists_slotted hexact ht
  have hdeeper : deeper.fillMissing = false := hexact
  refine ⟨readAs_group hdeeper hs, fun l r left right hleft hright => ?_,
    readAs_script hdeeper hs, readAs_fraction hdeeper hs ht, fun hclear => ?_⟩
  · exact readAs_fenced hdeeper hs hleft hright
  · rw [hs.scans.tokens_eq] at hclear
    exact readAs_root hdeeper hs ht hclear

theorem braced_bracket_in_slots :
    let s := "\x7b]\x7d % ]"
    let S : Formula := [.group [.symbol .closing "]" ⟨1, 2⟩] none ⟨0, 3⟩]
    read s { maxDepth := 1 } = .ok S ∧
    ReadAs ("\\left" ++ "\\langle " ++ s ++ "\n" ++ "\\right" ++ ".") { maxDepth := 2 }
      [.group S (some ⟨"⟨", ""⟩)] ∧
    ReadAs ("\\sqrt" ++ "[" ++ s ++ "\n" ++ "]" ++ braced "]") { maxDepth := 2 }
      [{ kind := .radical, nucleus := "√", arguments := [[.symbol .closing "]" ⟨0, 1⟩], S] }] := by
  intro s S
  have hs : read s { maxDepth := 1 } = .ok S := by decide +kernel
  have ht : read "]" { maxDepth := 1 } = .ok [.symbol .closing "]" ⟨0, 1⟩] := by decide +kernel
  have hletter : NoLetter (" " ++ (s ++ "\n" ++ "\\right" ++ ".")).toList := by
    rw [String.toList_append]
    exact noLetter_cons (c := ' ') (by decide) _
  have hnone : IsGap "" := .inl (by simp)
  have hspace : IsGap " " := .inl (by simp [isSpacing])
  have hleft : Delimiter.Written "⟨" "\\langle " (s ++ "\n" ++ "\\right" ++ ".") :=
    ⟨"", "\\langle", " ", .command "langle", rfl, hnone, hspace,
      .command (by decide) (fun _ => hletter), by decide⟩
  have hright : Delimiter.Written "" "." "" :=
    ⟨"", ".", "", .character '.', rfl, hnone, hnone, .character (by decide), by decide⟩
  have hclear : Token.bracketOutside [] (tokens s) = false := by decide +kernel
  obtain ⟨-, hfenced, -, -, hroot⟩ := read_in_slots rfl hs ht
  exact ⟨hs, hfenced _ _ _ _ hleft hright, hroot hclear⟩

end Formula

end TexMath
