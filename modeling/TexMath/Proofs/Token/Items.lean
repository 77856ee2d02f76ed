import TexMath.Token.Scan

/-!
# The items of a source

Every item before the end of the source takes at least one character, and no item is the end, so
that the items of a source are independent of the bound on their number.
-/

namespace TexMath

open Text

namespace Cursor

variable {cursor : Cursor} {c : Char} {rest : List Char}

/-! ## The text that remains -/

theorem length_pastRun_le (cursor : Cursor) (p : Char → Bool) :
    (cursor.pastRun p).rest.length ≤ cursor.rest.length :=
  (List.dropWhile_sublist p).length_le

theorem length_pastNext_le (cursor : Cursor) (c : Char) :
    (cursor.pastNext c).rest.length ≤ cursor.rest.length :=
  ((List.drop_sublist 1 _).trans (List.dropWhile_sublist _)).length_le

theorem length_commandName?_lt {name : String} {after : Cursor}
    (h : cursor.commandName? = some (name, after)) :
    after.rest.length < cursor.rest.length := by
  unfold commandName? at h
  split at h
  · cases h
  · rename_i c rest hrest
    split at h
    · rename_i hletter
      cases h
      simp only [pastRun, hrest, List.dropWhile_cons, hletter, if_true, List.length_cons]
      have := (List.dropWhile_sublist (l := rest) Char.isAlpha).length_le
      omega
    · cases h
      simp [past, hrest]

theorem length_environmentName_le (cursor : Cursor) (command : String) :
    (cursor.environmentName command).2.rest.length ≤ cursor.rest.length := by
  unfold environmentName
  split
  · exact Nat.le_refl _
  · rename_i rest hrest
    have hnamed := length_pastRun_le (cursor.past '\x7b' rest) isEnvironmentCharacter
    simp only [past] at hnamed
    rw [hrest, List.length_cons]
    dsimp only [past]
    split
    · dsimp only
      omega
    · rename_i after hafter
      rw [hafter] at hnamed
      simp only [List.length_cons] at hnamed ⊢
      omega
    · rename_i c after _ hafter
      rw [hafter] at hnamed
      refine Nat.le_trans (length_pastNext_le _ '\x7d') ?_
      simp only [List.length_cons] at hnamed ⊢
      omega
  · rename_i c rest _ hrest
    simp [past, hrest]

theorem length_scanEnvironment_le (first cursor : Cursor) (lead : List Char) (command : String)
    (token : Environment → Token) :
    (scanEnvironment first lead command token cursor).2.rest.length ≤ cursor.rest.length := by
  have hname := length_environmentName_le cursor command
  unfold scanEnvironment
  split
  · rename_i heq
    rwa [heq] at hname
  · rename_i heq
    rw [heq] at hname
    dsimp only
    split <;> exact hname

theorem length_scanCommand_le (first cursor : Cursor) :
    (scanCommand first cursor).2.rest.length ≤ cursor.rest.length := by
  unfold scanCommand
  split
  · exact Nat.le_refl _
  · rename_i name named heq
    have hname := length_commandName?_lt heq
    have hafter := length_pastRun_le named isSpacing
    have hle : (named.pastRun isSpacing).rest.length ≤ cursor.rest.length := by omega
    dsimp only
    split
    · exact Nat.le_trans (length_scanEnvironment_le ..) hle
    · exact Nat.le_trans (length_scanEnvironment_le ..) hle
    · exact hle

theorem length_scan_lt (h : cursor.rest ≠ []) :
    cursor.scan.2.rest.length < cursor.rest.length := by
  unfold scan
  split
  · rename_i hrest
    exact absurd hrest h
  · rename_i c rest hrest
    dsimp only
    split
    · rename_i hspacing
      simp only [pastRun, hrest, List.dropWhile_cons, hspacing, if_true, List.length_cons]
      have := (List.dropWhile_sublist (l := rest) isSpacing).length_le
      omega
    · rw [hrest, List.length_cons, Nat.lt_succ_iff]
      split
      · exact length_pastNext_le (cursor.past c rest) '\n'
      · split
        · exact length_scanCommand_le cursor (cursor.past c rest)
        · split <;> exact Nat.le_refl _

/-! ## Items up to the end -/

@[simp] theorem items_of_nil (h : cursor.rest = []) (bound : Nat) : cursor.items bound = [] := by
  cases bound with
  | zero => rfl
  | succ bound => simp [items, h]

theorem items_succ (h : cursor.rest ≠ []) (bound : Nat) :
    cursor.items (bound + 1) = cursor.scan.1 :: cursor.scan.2.items bound := by
  obtain ⟨offset, _ | ⟨c, rest⟩⟩ := cursor
  · exact absurd rfl h
  · rfl

theorem length_items_le (cursor : Cursor) (bound : Nat) :
    (cursor.items bound).length ≤ bound := by
  induction bound generalizing cursor with
  | zero => exact Nat.le_refl 0
  | succ bound ih =>
      unfold items
      split
      · exact Nat.zero_le _
      · exact Nat.succ_le_succ (ih _)

theorem items_eq_of_le {bound : Nat} (h : cursor.rest.length ≤ bound) :
    cursor.items bound = cursor.items cursor.rest.length := by
  -- An item may take many characters, while the bound goes down by one for each item.
  induction hlength : cursor.rest.length using Nat.strongRecOn generalizing cursor bound with
  | ind length ih =>
      by_cases hrest : cursor.rest = []
      · rw [items_of_nil hrest, items_of_nil hrest]
      have hlt := length_scan_lt hrest
      obtain ⟨bound, rfl⟩ := Nat.exists_eq_add_of_lt (Nat.lt_of_lt_of_le hlt h)
      obtain ⟨count, hcount⟩ := Nat.exists_eq_add_of_lt hlt
      rw [← hlength, hcount, items_succ hrest, items_succ hrest,
        ih _ (hlength ▸ hlt) (Nat.le_add_right _ _) rfl,
        ih _ (hlength ▸ hlt) (Nat.le_add_right _ _) rfl]

theorem items_of_ne_nil (h : cursor.rest ≠ []) :
    cursor.items cursor.rest.length =
      cursor.scan.1 :: cursor.scan.2.items cursor.scan.2.rest.length := by
  obtain ⟨count, hcount⟩ := Nat.exists_eq_add_of_lt (length_scan_lt h)
  rw [hcount, items_succ h, items_eq_of_le (Nat.le_add_right _ _)]

def significant (cursor : Cursor) : List Item :=
  (cursor.items cursor.rest.length).filter Item.isSignificant

theorem significant_of_ne_nil (h : cursor.rest ≠ []) :
    cursor.significant = if cursor.scan.1.isSignificant then
      cursor.scan.1 :: cursor.scan.2.significant else cursor.scan.2.significant := by
  rw [significant, items_of_ne_nil h, List.filter_cons]
  rfl

/-! ## No item is the end -/

theorem characterToken?_ne_sourceEnd : characterToken? c ≠ some .sourceEnd := by
  unfold characterToken?
  split <;> simp

theorem token_scanEnvironment_ne {first cursor : Cursor} {lead : List Char} {command : String}
    {token : Environment → Token} {lexeme : Lexeme} (htoken : ∀ found, token found ≠ .sourceEnd)
    (h : (scanEnvironment first lead command token cursor).1 = .lexeme lexeme) :
    lexeme.token ≠ .sourceEnd := by
  unfold scanEnvironment at h
  split at h
  · cases h
  · dsimp only at h
    split at h
    · cases h
    · cases h
      exact htoken _

theorem token_scanCommand_ne {first cursor : Cursor} {lexeme : Lexeme}
    (h : (scanCommand first cursor).1 = .lexeme lexeme) : lexeme.token ≠ .sourceEnd := by
  unfold scanCommand at h
  split at h
  · cases h
  · dsimp only at h
    split at h
    · exact token_scanEnvironment_ne (by simp) h
    · exact token_scanEnvironment_ne (by simp) h
    · cases h
      nofun

theorem token_scan_ne {lexeme : Lexeme} (hrest : cursor.rest ≠ [])
    (h : cursor.scan.1 = .lexeme lexeme) : lexeme.token ≠ .sourceEnd := by
  unfold scan at h
  split at h
  · rename_i hnil
    exact absurd hnil hrest
  · rename_i c rest _
    dsimp only at h
    split at h
    · cases h
      nofun
    · split at h
      · cases h
        nofun
      · split at h
        · exact token_scanCommand_ne h
        · split at h
          · cases h
          · rename_i token htoken
            cases h
            rintro rfl
            exact characterToken?_ne_sourceEnd htoken

theorem token_ne_of_mem_items {bound : Nat} {lexeme : Lexeme}
    (h : .lexeme lexeme ∈ cursor.items bound) : lexeme.token ≠ .sourceEnd := by
  induction bound generalizing cursor with
  | zero => cases h
  | succ bound ih =>
      by_cases hrest : cursor.rest = []
      · rw [items_of_nil hrest] at h
        cases h
      · rw [items_succ hrest, List.mem_cons] at h
        rcases h with h | h
        · exact token_scan_ne hrest h.symm
        · exact ih h

end Cursor

/-! ## Significant items -/

def Item.token? : Item → Option Token
  | lexeme l => some l.token
  | fault _ => none

def tokens (source : String) : List Token := (significantItems source).filterMap Item.token?

theorem tokens_of_significantItems {source : String} {lexemes : List Lexeme}
    (h : significantItems source = lexemes.map .lexeme) :
    tokens source = lexemes.map Lexeme.token := by
  rw [tokens, h, List.filterMap_map]
  exact List.filterMap_eq_map' ▸ rfl

theorem exists_lexemes_of_no_fault {found : List Item} (h : ∀ error, .fault error ∉ found) :
    ∃ lexemes : List Lexeme, found = lexemes.map .lexeme := by
  induction found with
  | nil => exact ⟨[], rfl⟩
  | cons item rest ih =>
      obtain ⟨lexemes, rfl⟩ := ih fun error hmem => h error (List.mem_cons_of_mem _ hmem)
      cases item with
      | lexeme lexeme => exact ⟨lexeme :: lexemes, rfl⟩
      | fault error => exact absurd List.mem_cons_self (h error)

theorem significantItems_eq_lexemes_iff {source : String} :
    (∃ lexemes : List Lexeme, significantItems source = lexemes.map .lexeme) ↔
      ∀ error, .fault error ∉ items source := by
  constructor
  · rintro ⟨lexemes, h⟩ error hmem
    have hfault : .fault error ∈ significantItems source := List.mem_filter.mpr ⟨hmem, rfl⟩
    rw [h, List.mem_map] at hfault
    obtain ⟨lexeme, -, hne⟩ := hfault
    cases hne
  · intro h
    exact exists_lexemes_of_no_fault fun error hmem => h error (List.mem_filter.mp hmem).1

theorem token_ne_of_mem_significantItems {source : String} {lexeme : Lexeme}
    (h : .lexeme lexeme ∈ significantItems source) : lexeme.token ≠ .sourceEnd :=
  Cursor.token_ne_of_mem_items (List.mem_filter.mp h).1

theorem isSignificant_of_mem_significantItems {source : String} {item : Item}
    (h : item ∈ significantItems source) : item.isSignificant = true :=
  (List.mem_filter.mp h).2

theorem length_significantItems_le (source : String) :
    (significantItems source).length ≤ source.utf8ByteSize := by
  rw [← width_toList]
  exact Nat.le_trans (List.length_filter_le ..)
    (Nat.le_trans (Cursor.length_items_le ..) (length_le_width _))

end TexMath
