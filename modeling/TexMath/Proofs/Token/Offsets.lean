import TexMath.Proofs.Token.Places

/-!
# Text at another offset

A scan asks for the offset of its cursor only to say where its item lies.  So text that stands some
bytes further on in a source scans to the same items, moved by as many bytes.
-/

namespace TexMath

open Text

/-! ## Moved by some bytes -/

def Span.shift (count : Nat) (span : Span) : Span := ⟨span.start + count, span.stop + count⟩

def Lexeme.shift (count : Nat) (lexeme : Lexeme) : Lexeme :=
  { lexeme with span := lexeme.span.shift count }

def ParseError.shift (count : Nat) (error : ParseError) : ParseError :=
  { error with span := error.span.shift count }

def Item.shift (count : Nat) : Item → Item
  | lexeme found => lexeme (found.shift count)
  | fault error => fault (error.shift count)

@[simp] theorem Item.isSignificant_shift (count : Nat) (item : Item) :
    (item.shift count).isSignificant = item.isSignificant := by
  cases item <;> rfl

@[simp] theorem Item.shift_shift (first second : Nat) (item : Item) :
    (item.shift first).shift second = item.shift (first + second) := by
  cases item <;> simp [shift, Lexeme.shift, ParseError.shift, Span.shift, Nat.add_assoc]

@[simp] theorem Item.start_shift (count : Nat) (item : Item) :
    (item.shift count).span.start = item.span.start + count := by
  cases item <;> rfl

theorem map_shift_lexemes (count : Nat) (lexemes : List Lexeme) :
    (lexemes.map Item.lexeme).map (Item.shift count) =
      (lexemes.map (Lexeme.shift count)).map .lexeme := by
  rw [List.map_map, List.map_map]
  rfl

theorem Span.shift_of_start (count width : Nat) :
    (⟨0, width⟩ : Span).shift count = ⟨count, count + width⟩ := by
  simp [Span.shift, Nat.add_comm]

namespace Cursor

variable {cursor first last : Cursor} {count : Nat}

def shift (count : Nat) (cursor : Cursor) : Cursor := ⟨cursor.offset + count, cursor.rest⟩

@[simp] theorem shift_rest : (cursor.shift count).rest = cursor.rest := rfl

@[simp] theorem run_shift (p : Char → Bool) : (cursor.shift count).run p = cursor.run p := rfl

@[simp] theorem past_shift (c : Char) (rest : List Char) :
    (cursor.shift count).past c rest = (cursor.past c rest).shift count := by
  simp [past, shift, Nat.add_right_comm]

@[simp] theorem pastRun_shift (p : Char → Bool) :
    (cursor.shift count).pastRun p = (cursor.pastRun p).shift count := by
  simp [pastRun, run, shift, Nat.add_right_comm]

@[simp] theorem pastNext_shift (c : Char) :
    (cursor.shift count).pastNext c = (cursor.pastNext c).shift count := by
  simp [pastNext, throughNext, run, shift, Nat.add_right_comm]

/-! ## Scans -/

theorem commandName?_shift :
    (cursor.shift count).commandName? =
      cursor.commandName?.map fun found => (found.1, found.2.shift count) := by
  unfold commandName?
  rw [shift_rest]
  split
  · rfl
  · split <;> simp

theorem environmentName_shift (command : String) :
    (cursor.shift count).environmentName command =
      ((cursor.environmentName command).1.mapError (ParseError.shift count),
        (cursor.environmentName command).2.shift count) := by
  unfold environmentName
  rw [shift_rest]
  split
  · rfl
  · dsimp only
    rw [past_shift, pastRun_shift, shift_rest]
    split
    · rfl
    · rw [past_shift]
      rfl
    · rw [past_shift, pastNext_shift]
      rfl
  · dsimp only
    rw [past_shift]
    rfl

theorem scanEnvironment_shift (lead : List Char) (command : String)
    (token : Environment → Token) :
    scanEnvironment (first.shift count) lead command token (cursor.shift count) =
      ((scanEnvironment first lead command token cursor).1.shift count,
        (scanEnvironment first lead command token cursor).2.shift count) := by
  unfold scanEnvironment
  rw [environmentName_shift]
  generalize cursor.environmentName command = result
  obtain ⟨_ | name, after⟩ := result
  · rfl
  · dsimp only [Except.mapError]
    split <;> rfl

theorem scanCommand_shift :
    scanCommand (first.shift count) (cursor.shift count) =
      ((scanCommand first cursor).1.shift count, (scanCommand first cursor).2.shift count) := by
  unfold scanCommand
  rw [commandName?_shift]
  generalize cursor.commandName? = result
  rcases result with _ | ⟨name, named⟩
  · rfl
  · dsimp only [Option.map]
    rw [pastRun_shift, run_shift]
    split
    · exact scanEnvironment_shift _ _ _
    · exact scanEnvironment_shift _ _ _
    · rfl

theorem scan_shift :
    (cursor.shift count).scan = (cursor.scan.1.shift count, cursor.scan.2.shift count) := by
  unfold scan
  rw [shift_rest]
  split
  · rfl
  · dsimp only
    rw [past_shift]
    split
    · rw [pastRun_shift]
      rfl
    · split
      · rw [pastNext_shift]
        rfl
      · split
        · exact scanCommand_shift
        · split <;> rfl

theorem items_shift (bound : Nat) :
    (cursor.shift count).items bound = (cursor.items bound).map (Item.shift count) := by
  induction bound generalizing cursor with
  | zero => rfl
  | succ bound ih =>
      by_cases hrest : cursor.rest = []
      · have hmoved : (cursor.shift count).rest = [] := hrest
        rw [items_of_nil hrest, items_of_nil hmoved]
        rfl
      · have hmoved : (cursor.shift count).rest ≠ [] := hrest
        rw [items_succ hrest, items_succ hmoved, scan_shift, ih]
        rfl

theorem significant_shift :
    (cursor.shift count).significant = cursor.significant.map (Item.shift count) := by
  unfold significant
  rw [shift_rest, items_shift, List.filter_map]
  congr 2
  funext item
  exact Item.isSignificant_shift count item

end Cursor

end TexMath
