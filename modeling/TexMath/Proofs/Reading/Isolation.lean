import TexMath.Proofs.Reading.Disturbance
import TexMath.Proofs.Reading.Exhaustion
import TexMath.Proofs.Symbol.Writing
import TexMath.Proofs.Token.Scans

/-!
# Errors that stand alone

An unknown command in the place of a symbol of a formula is reported, and nothing else is.  So are
characters that may not be written, wherever they are put between the tokens of a formula.
-/

namespace TexMath

open Text

/-! ## Unknown commands -/

namespace Disturbed

variable {kept : Bool} {items items' : List Item} {errors : List ParseError}

theorem shifted (hclear : ∀ error, .fault error ∉ items) (count count' : Nat) :
    Disturbed kept (items.map (Item.shift count)) (items.map (Item.shift count')) [] := by
  induction items generalizing kept with
  | nil => exact .nil
  | cons item items ih =>
      have hrest : ∀ error, .fault error ∉ items :=
        fun error hmem => hclear error (List.mem_cons_of_mem _ hmem)
      cases item with
      | lexeme lexeme =>
          change Disturbed kept (.lexeme (lexeme.shift count) :: _)
            (.lexeme (lexeme.shift count') :: _) ([] ++ [])
          exact .lexeme (.same rfl) (fun _ => rfl) (ih hrest)
      | fault error => exact absurd List.mem_cons_self (hclear error)

end Disturbed

def Lexeme.IsDelimiter (lexeme : Lexeme) (items : List Item) : Prop :=
  ∃ fence : Lexeme, fence.token.isFence = true ∧ [.lexeme fence, .lexeme lexeme] <:+: items

variable {front text back name : String} {lexeme : Lexeme}

theorem significantItems_unknown (hword : Piece.isWord name = true) (hbegin : name ≠ "begin")
    (hend : name ≠ "end") (back : String) :
    significantItems ("\\" ++ name ++ " " ++ back) =
      .lexeme ⟨.command name, ⟨0, ("\\" ++ name).utf8ByteSize⟩, "\\" ++ name⟩ ::
        (significantItems back).map (Item.shift ("\\" ++ name ++ " ").utf8ByteSize) := by
  have hname : Piece.isName name = true := by simp [Piece.isName, hword, hbegin, hend]
  have hgap : Text.IsGap " " := .inl (by simp [isSpacing])
  have hspelling : Token.Spelling (.command name) ("\\" ++ name).toList (" " ++ back).toList := by
    rw [String.toList_append, String.toList_append]
    exact .command hname fun _ => noLetter_cons (c := ' ') (by decide) _
  rw [String.append_assoc, significantItems_cons hspelling rfl, hgap.significantItems_append,
    List.map_map]
  congr 2
  funext item
  simp [Nat.add_comm]

theorem exists_items_around (hmem : .lexeme lexeme ∈ significantItems (front ++ text ++ back))
    (hspan : lexeme.span = ⟨front.utf8ByteSize, (front ++ text).utf8ByteSize⟩)
    (hword : Piece.isWord name = true) (hbegin : name ≠ "begin") (hend : name ≠ "end") :
    ∃ (before : List Item) (count count' : Nat),
      significantItems (front ++ text ++ back) =
        before ++ .lexeme lexeme :: (significantItems back).map (Item.shift count) ∧
      significantItems (front ++ ("\\" ++ name ++ " ") ++ back) =
        before ++ .lexeme ⟨.command name,
          ⟨front.utf8ByteSize, (front ++ "\\" ++ name).utf8ByteSize⟩, "\\" ++ name⟩ ::
            (significantItems back).map (Item.shift count') := by
  obtain ⟨before, hitems, hother⟩ := exists_items_before hmem hspan
  have hletter : NoLetter ("\\" ++ name ++ " " ++ back).toList := by
    simp only [String.toList_append]
    exact noLetter_cons (c := '\\') (by decide) _
  refine ⟨before, _, ("\\" ++ name ++ " ").utf8ByteSize + front.utf8ByteSize, hitems, ?_⟩
  rw [String.append_assoc, hother _ hletter, significantItems_unknown hword hbegin hend,
    List.map_cons, List.map_map]
  congr 2
  · simp [Item.shift, Lexeme.shift, Span.shift_of_start, Nat.add_assoc]
  · congr 1
    funext item
    simp

theorem foldl_isFence_of_not_isDelimiter {earlier : List Lexeme} {later : List Item}
    (h : ¬lexeme.IsDelimiter (earlier.map .lexeme ++ .lexeme lexeme :: later)) :
    earlier.foldl (fun _ lexeme => lexeme.token.isFence) false = false := by
  rcases List.eq_nil_or_concat earlier with rfl | ⟨others, fence, rfl⟩
  · rfl
  rw [List.concat_eq_append, List.foldl_append]
  by_contra hfence
  exact h ⟨fence, by simpa using hfence, others.map .lexeme, later, by simp⟩

namespace Formula

variable {options : ReadingOptions} {formula : Formula}

theorem unknown_isolated (hread : read (front ++ text ++ back) options = .ok formula)
    (hmem : .lexeme lexeme ∈ significantItems (front ++ text ++ back))
    (hspan : lexeme.span = ⟨front.utf8ByteSize, (front ++ text).utf8ByteSize⟩)
    (hsymbol : lexeme.token.IsSymbol)
    (hdelimiter : ¬lexeme.IsDelimiter (significantItems (front ++ text ++ back)))
    (hword : Piece.isWord name = true) (hbegin : name ≠ "begin") (hend : name ≠ "end")
    (hunknown : Command.find? name = none) :
    readAll (front ++ ("\\" ++ name ++ " ") ++ back) options =
      .error [⟨.unknownCommand name,
        ⟨front.utf8ByteSize, (front ++ "\\" ++ name).utf8ByteSize⟩⟩] := by
  obtain ⟨before, count, count', hitems, hitems'⟩ :=
    exists_items_around hmem hspan hword hbegin hend
  have hclear : ∀ error, .fault error ∉ significantItems (front ++ text ++ back) :=
    fun error hfault => notMem_items_of_read hread error (List.mem_filter.mp hfault).1
  rw [hitems] at hclear hdelimiter
  obtain ⟨earlier, rfl⟩ := exists_lexemes_of_no_fault fun error hfault =>
    hclear error (List.mem_append_left _ hfault)
  have hback : ∀ error, .fault error ∉ significantItems back := fun error hfault =>
    hclear _ (List.mem_append_right _ (List.mem_cons_of_mem _ (List.mem_map_of_mem hfault)))
  let unknown : ParseError := ⟨.unknownCommand name,
    ⟨front.utf8ByteSize, (front ++ "\\" ++ name).utf8ByteSize⟩⟩
  have hdisturbed : Disturbed false (significantItems (front ++ text ++ back))
      (significantItems (front ++ ("\\" ++ name ++ " ") ++ back)) ([unknown] ++ []) := by
    rw [hitems, hitems']
    refine .behind ?_
    rw [foldl_isFence_of_not_isDelimiter hdelimiter]
    exact .lexeme (.unknown hsymbol rfl hunknown) nofun (.shifted hback count count')
  exact readAll_of_disturbed hread hdisturbed (by simp)

theorem unknown_in_fence :
    let source := "\\left(" ++ "\\alpha" ++ "^2_n\\right)"
    (∃ formula, read source {} = .ok formula) ∧
      .lexeme ⟨.command "alpha", ⟨6, 12⟩, "\\alpha"⟩ ∈ significantItems source ∧
      readAll ("\\left(" ++ ("\\" ++ "foo" ++ " ") ++ "^2_n\\right)") {} =
        .error [⟨.unknownCommand "foo", ⟨6, 10⟩⟩] := by
  intro source
  have hread : read source {} = .ok [.group [
      { kind := .ordinary, nucleus := "α", superscript := some [.symbol .ordinary "2" ⟨13, 14⟩]
        subscript := some [.symbol .ordinary "n" ⟨15, 16⟩], span := ⟨6, 16⟩ }]
      (some ⟨"(", ")"⟩) ⟨0, 23⟩] := by
    decide +kernel
  have hmem : .lexeme ⟨.command "alpha", ⟨6, 12⟩, "\\alpha"⟩ ∈ significantItems source := by
    decide +kernel
  have hfind : Command.find? "alpha" = some (.atom { kind := .ordinary, nucleus := "α" }) := by
    decide +kernel
  have hdelimiter : ¬Lexeme.IsDelimiter ⟨.command "alpha", ⟨6, 12⟩, "\\alpha"⟩
      (significantItems source) := by
    rintro ⟨fence, hfence, hbehind⟩
    have htokens : (significantItems source).map Item.token? =
        [some (.command "left"), some (.character '('), some (.command "alpha"),
          some .superscriptMark, some (.character '2'), some .subscriptMark, some (.character 'n'),
          some (.command "right"), some (.character ')')] := by
      decide +kernel
    have htoken : fence.token = .character '(' := by
      have hpair := hbehind.map Item.token?
      rw [htokens] at hpair
      simpa [List.infix_cons_iff, Item.token?] using hpair
    simp [htoken, Token.isFence] at hfence
  exact ⟨⟨_, hread⟩, hmem, unknown_isolated hread hmem rfl (.command hfind rfl (by simp)) hdelimiter
    (by decide) (by decide) (by decide) (by decide +kernel)⟩

end Formula

/-! ## Forbidden characters -/

def isForbidden (c : Char) : Bool :=
  c == '#' || c == '$' || c == '~' || (isControl c && !isSpacing c)

namespace Cursor

variable {c : Char}

theorem characterToken?_of_isControl (h : isControl c = true) : characterToken? c = none := by
  unfold characterToken?
  split
  case h_11 => simp [h]
  -- All characters named there are printed.
  all_goals exact absurd h (by decide)

theorem scan_of_isForbidden (h : isForbidden c = true) (offset : Nat) (rest : List Char) :
    (⟨offset, c :: rest⟩ : Cursor).scan =
      (.fault ⟨.unexpectedCharacter c, ⟨offset, offset + c.utf8Size⟩⟩,
        ⟨offset + c.utf8Size, rest⟩) := by
  obtain ⟨hspacing, hcomment, hcommand, htoken⟩ : isSpacing c = false ∧ c ≠ '%' ∧ c ≠ '\\' ∧
      characterToken? c = none := by
    simp only [isForbidden, Bool.or_eq_true, Bool.and_eq_true, beq_iff_eq, Bool.not_eq_true'] at h
    rcases h with ((rfl | rfl) | rfl) | ⟨hcontrol, hspacing⟩
    · decide
    · decide
    · decide
    · have hne : ∀ other : Char, isControl other = false → c ≠ other := by
        rintro other hother rfl
        simp [hother] at hcontrol
      exact ⟨hspacing, hne _ (by decide), hne _ (by decide), characterToken?_of_isControl hcontrol⟩
  simp [scan, hspacing, hcomment, hcommand, htoken, past, spanTo]

end Cursor

theorem not_isAlpha_of_isForbidden {c : Char} (h : isForbidden c = true) : c.isAlpha = false := by
  simp only [isForbidden, Bool.or_eq_true, Bool.and_eq_true, beq_iff_eq] at h
  rcases h with ((rfl | rfl) | rfl) | ⟨hcontrol, -⟩
  · decide
  · decide
  · decide
  · by_contra hletter
    rw [Bool.not_eq_false] at hletter
    have halphanum : c.isAlphanum = true := by simp [Char.isAlphanum, hletter]
    simp [Literal.isControl_of_isAlphanum halphanum] at hcontrol

/-- The second characters are the first with forbidden ones put in at some offsets.  The errors are
about the latter, one for each, at its place among the second characters. -/
inductive Strewn (places : Nat → Prop) :
    Nat → Nat → List Char → List Char → List ParseError → Prop
  | nil {offset offset' : Nat} : Strewn places offset offset' [] [] []
  | keep {offset offset' : Nat} {c : Char} {chars chars' : List Char} {errors : List ParseError} :
      Strewn places (offset + c.utf8Size) (offset' + c.utf8Size) chars chars' errors →
      Strewn places offset offset' (c :: chars) (c :: chars') errors
  | put {offset offset' : Nat} {c : Char} {chars chars' : List Char} {errors : List ParseError} :
      places offset → isForbidden c = true →
      Strewn places offset (offset' + c.utf8Size) chars chars' errors →
      Strewn places offset offset' chars (c :: chars')
        (⟨.unexpectedCharacter c, ⟨offset', offset' + c.utf8Size⟩⟩ :: errors)

namespace Strewn

variable {places : Nat → Prop} {offset offset' : Nat} {c : Char}
  {chars chars' text spaces rest : List Char} {errors : List ParseError}

theorem noLetter (h : Strewn places offset offset' chars chars' errors) (hletter : NoLetter chars) :
    NoLetter chars' := by
  cases h with
  | nil => exact hletter
  | keep _ => exact hletter
  | put _ hforbidden _ => exact noLetter_cons (not_isAlpha_of_isForbidden hforbidden) _

theorem eq_nil_of_not_place (h : Strewn places offset offset' [] chars' errors)
    (hplace : ¬places offset) : chars' = [] := by
  cases h with
  | nil => rfl
  | put hput _ _ => exact absurd hput hplace

theorem through (h : Strewn places offset offset' (text ++ rest) chars' errors)
    (hnone : ∀ place, offset ≤ place → place < offset + width text → ¬places place) :
    ∃ behind, chars' = text ++ behind ∧
      Strewn places (offset + width text) (offset' + width text) rest behind errors := by
  induction text generalizing offset offset' chars' with
  | nil => exact ⟨chars', rfl, h⟩
  | cons c text ih =>
      have hsize := c.utf8Size_pos
      rw [width_cons] at hnone
      rw [List.cons_append] at h
      cases h with
      | keep h =>
          obtain ⟨behind, rfl, hbehind⟩ := ih h fun place hlow hhigh => hnone place (by omega)
            (by omega)
          exact ⟨behind, rfl, by simpa [Nat.add_assoc] using hbehind⟩
      | put hplace _ _ => exact absurd hplace (hnone offset (Nat.le_refl _) (by omega))

theorem disturbed_put {kept : Bool} {items : List Item} (hforbidden : isForbidden c = true)
    (h : Disturbed kept items (⟨offset + c.utf8Size, chars⟩ : Cursor).significant errors) :
    Disturbed kept items (⟨offset, c :: chars⟩ : Cursor).significant
      (⟨.unexpectedCharacter c, ⟨offset, offset + c.utf8Size⟩⟩ :: errors) := by
  rw [Cursor.significant_of_ne_nil (List.cons_ne_nil _ _), Cursor.scan_of_isForbidden hforbidden]
  exact .fault h

theorem ended (h : Strewn places offset offset' [] chars' errors) (kept : Bool) :
    Disturbed kept [] (⟨offset', chars'⟩ : Cursor).significant errors := by
  generalize hchars : ([] : List Char) = chars at h
  induction h with
  | nil => exact .nil
  | keep => cases hchars
  | put _ hforbidden _ ih => exact disturbed_put hforbidden (ih hchars)

theorem peel (h : Strewn places offset offset' (c :: chars) chars' errors) :
    ∃ start behind later,
      Strewn places (offset + c.utf8Size) (start + c.utf8Size) chars behind later ∧
      ∀ kept items, Disturbed kept items (⟨start, c :: behind⟩ : Cursor).significant later →
        Disturbed kept items (⟨offset', chars'⟩ : Cursor).significant errors := by
  generalize hchars : c :: chars = all at h
  induction h with
  | nil => cases hchars
  | keep h =>
      cases hchars
      exact ⟨_, _, _, h, fun _ _ => id⟩
  | put _ hforbidden _ ih =>
      obtain ⟨start, behind, later, hbehind, hdisturbed⟩ := ih hchars
      exact ⟨start, behind, later, hbehind, fun kept items h =>
        disturbed_put hforbidden (hdisturbed kept items h)⟩

theorem past_spaces (h : Strewn places offset offset' (spaces ++ rest) chars' errors)
    (hspaces : ∀ c ∈ spaces, isSpacing c = true) :
    ∃ start behind later, Strewn places (offset + width spaces) start rest behind later ∧
      ∀ kept items, Disturbed kept items (⟨start, behind⟩ : Cursor).significant later →
        Disturbed kept items (⟨offset', chars'⟩ : Cursor).significant errors := by
  induction spaces generalizing offset offset' chars' errors with
  | nil => exact ⟨_, _, _, h, fun _ _ => id⟩
  | cons c spaces ih =>
      rw [List.forall_mem_cons] at hspaces
      obtain ⟨middle, between, others, hbetween, hfirst⟩ := h.peel
      obtain ⟨start, behind, later, hbehind, hrest⟩ := ih hbetween hspaces.2
      refine ⟨start, behind, later, by simpa [Nat.add_assoc] using hbehind, fun kept items h => ?_⟩
      refine hfirst kept items ?_
      have hspace := Cursor.significant_spaces (List.forall_mem_singleton.mpr hspaces.1) middle
        between
      rw [List.singleton_append, width_cons, width_nil, Nat.add_zero] at hspace
      rw [hspace]
      exact hrest kept items h

/-- A lexeme stays as it is, and so does what its text is in front of.  Only the last comment would
take in what is put in behind it. -/
theorem past_lexeme {lexeme : Lexeme}
    (h : Strewn places offset offset' (lexeme.text.toList ++ rest) chars' errors)
    (hspelling : Token.Spelling lexeme.token lexeme.text.toList rest)
    (hnone : ∀ place, offset < place → place < offset + width lexeme.text.toList → ¬places place)
    (hcomment : lexeme.token = .comment → rest = [] →
      ¬places (offset + width lexeme.text.toList)) :
    ∃ start behind later,
      Strewn places (offset + width lexeme.text.toList) start rest behind later ∧
      ∀ items, (∀ kept, Disturbed kept items (⟨start, behind⟩ : Cursor).significant later) →
        ∀ kept, Disturbed kept ([.lexeme lexeme].filter Item.isSignificant ++ items)
          (⟨offset', chars'⟩ : Cursor).significant errors := by
  obtain ⟨c, text, htext⟩ := List.exists_cons_of_ne_nil hspelling.ne_nil
  have hsize := c.utf8Size_pos
  have hwidth : width lexeme.text.toList = c.utf8Size + width text := by rw [htext, width_cons]
  rw [htext, List.cons_append] at h
  obtain ⟨start, tail, later, htail, hfirst⟩ := h.peel
  obtain ⟨behind, rfl, hbehind⟩ := htail.through fun place hlow hhigh =>
    hnone place (by omega) (by omega)
  rw [Nat.add_assoc, Nat.add_assoc, ← hwidth] at hbehind
  have hspelled : Token.Spelling lexeme.token lexeme.text.toList behind := by
    by_cases hlast : lexeme.token = .comment ∧ rest = []
    · obtain ⟨htoken, rfl⟩ := hlast
      rwa [hbehind.eq_nil_of_not_place (hcomment htoken rfl)]
    · exact hspelling.in_front_of hbehind.noLetter fun htoken hrest => hlast ⟨htoken, hrest⟩
  refine ⟨_, behind, later, hbehind, fun items hitems kept => hfirst kept _ ?_⟩
  let moved : Lexeme := { lexeme with span := ⟨start, start + width lexeme.text.toList⟩ }
  have hmoved := Cursor.significant_of_spelling (show Token.Spelling moved.token _ _ from hspelled)
    rfl
  rw [← List.cons_append, ← htext, hmoved]
  cases htrivia : lexeme.token.isTrivia with
  | true => simpa [Item.isSignificant, moved, htrivia] using hitems kept
  | false =>
      have hlexeme : Disturbed kept (.lexeme lexeme :: items)
          (.lexeme moved :: (⟨moved.span.stop, behind⟩ : Cursor).significant) ([] ++ later) :=
        .lexeme (.same rfl) (fun _ => rfl) (hitems _)
      simpa [Item.isSignificant, moved, htrivia] using hlexeme

end Strewn

/-- Right in front of a token or right behind one.  A comment is no token. -/
def Item.IsEdge (items : List Item) (offset : Nat) : Prop :=
  ∃ lexeme : Lexeme, .lexeme lexeme ∈ items ∧ lexeme.token ≠ .comment ∧
    (offset = lexeme.span.start ∨ offset = lexeme.span.stop)

theorem Tiles.disturbed {places : Nat → Prop} {offset offset' : Nat} {chars chars' : List Char}
    {items : List Item} {errors : List ParseError} (htiles : Tiles offset chars items)
    (hclear : ∀ error, .fault error ∉ items)
    (hplaces : ∀ place, places place → offset < place → Item.IsEdge items place)
    (h : Strewn places offset offset' chars chars' errors) (kept : Bool) :
    Disturbed kept (items.filter Item.isSignificant) (⟨offset', chars'⟩ : Cursor).significant
      errors := by
  induction htiles generalizing offset' chars' errors kept with
  | @nil offset spaces hspaces =>
      rw [← List.append_nil spaces] at h
      obtain ⟨start, behind, later, hbehind, hdisturbed⟩ := h.past_spaces hspaces
      exact hdisturbed kept [] (hbehind.ended kept)
  | fault => exact absurd List.mem_cons_self (hclear _)
  | @lexeme offset spaces rest lexeme items hspaces hspelling hstart hstop htiles ih =>
      have hpos : 0 < width lexeme.text.toList := hspelling.width_pos
      have hedges : ∀ place, places place → lexeme.span.start < place →
          place = lexeme.span.stop ∧ lexeme.token ≠ .comment ∨ Item.IsEdge items place := by
        intro place hplace hlow
        obtain ⟨found, hmem, htoken, hedge⟩ := hplaces place hplace (by omega)
        rcases List.mem_cons.mp hmem with heq | hmem
        · cases heq
          exact .inl ⟨by omega, htoken⟩
        · exact .inr ⟨found, hmem, htoken, hedge⟩
      obtain ⟨middle, between, others, hbetween, hfirst⟩ := h.past_spaces hspaces
      rw [← hstart] at hbetween
      have hnone : ∀ place, lexeme.span.start < place →
          place < lexeme.span.start + width lexeme.text.toList → ¬places place := by
        intro place hlow hhigh hplace
        rcases hedges place hplace hlow with ⟨rfl, -⟩ | ⟨found, hmem, -, hedge⟩
        · omega
        · have hbounds := htiles.lexeme_bounds hmem
          omega
      have hcomment : lexeme.token = .comment → rest = [] →
          ¬places (lexeme.span.start + width lexeme.text.toList) := by
        rintro htoken rfl hplace
        obtain rfl := htiles.eq_nil_of_nil
        rcases hedges _ hplace (by omega) with ⟨-, hother⟩ | ⟨found, hmem, -, -⟩
        · exact hother htoken
        · cases hmem
      obtain ⟨start, behind, later, hbehind, hrest⟩ :=
        hbetween.past_lexeme hspelling hnone hcomment
      rw [← hstop] at hbehind
      have hlater := ih (fun error hmem => hclear error (List.mem_cons_of_mem _ hmem))
        (fun place hplace hlow => (hedges place hplace (by omega)).resolve_left (by omega)) hbehind
      have hitems := hfirst kept _ (hrest _ hlater kept)
      rwa [← List.filter_append, List.singleton_append] at hitems

namespace Formula

variable {source source' : String} {options : ReadingOptions} {formula : Formula}
  {errors : List ParseError}

theorem forbidden_reported (hread : read source options = .ok formula)
    (h : Strewn (Item.IsEdge (items source)) 0 0 source.toList source'.toList errors)
    (hne : errors ≠ []) : readAll source' options = .error errors := by
  have hdisturbed := (items_tile source).disturbed (notMem_items_of_read hread)
    (fun _ hplace _ => hplace) h false
  exact readAll_of_disturbed hread hdisturbed hne

theorem forbidden_around_index :
    let source := "\\sqrt[n]x"
    let source' := "\\sqrt#[n~]x"
    (∃ formula, read source {} = .ok formula) ∧
      readAll source' {} = .error
        [⟨.unexpectedCharacter '#', ⟨5, 6⟩⟩, ⟨.unexpectedCharacter '~', ⟨8, 9⟩⟩] := by
  intro source source'
  have hread : read source {} = .ok [{
      kind := .radical, nucleus := "√"
      arguments := [[.symbol .ordinary "x" ⟨8, 9⟩], [.symbol .ordinary "n" ⟨6, 7⟩]]
      span := ⟨0, 9⟩ }] := by
    decide +kernel
  have hsqrt : Item.IsEdge (items source) 5 :=
    ⟨⟨.command "sqrt", ⟨0, 5⟩, "\\sqrt"⟩, by decide +kernel, by decide, .inr rfl⟩
  have hclose : Item.IsEdge (items source) 7 :=
    ⟨⟨.bracketClose, ⟨7, 8⟩, "]"⟩, by decide +kernel, by decide, .inl rfl⟩
  have hstrewn : Strewn (Item.IsEdge (items source)) 0 0 source.toList source'.toList
      [⟨.unexpectedCharacter '#', ⟨5, 6⟩⟩, ⟨.unexpectedCharacter '~', ⟨8, 9⟩⟩] := by
    have hchars : source.toList = ['\\', 's', 'q', 'r', 't', '[', 'n', ']', 'x'] := by
      decide +kernel
    have hchars' : source'.toList =
        ['\\', 's', 'q', 'r', 't', '#', '[', 'n', '~', ']', 'x'] := by
      decide +kernel
    rw [hchars, hchars']
    exact .keep (.keep (.keep (.keep (.keep (.put hsqrt rfl (.keep (.keep (.put hclose rfl
      (.keep (.keep .nil))))))))))
  exact ⟨⟨_, hread⟩, forbidden_reported hread hstrewn (by simp)⟩

end Formula

end TexMath
