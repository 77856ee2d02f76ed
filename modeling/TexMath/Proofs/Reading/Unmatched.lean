import TexMath.Proofs.Reading.Concatenation
import TexMath.Proofs.Token.Scans

/-!
# Delimiters without a match

One delimiter that nothing matches, in front of a formula or on a line below it, is one error,
which points at the delimiter.  A group that is never closed takes the formula in and ends with the
source.  What closes no group is passed over.
-/

namespace TexMath

open Grammar Reading Text

variable {context : Context} {s t middle : State} {lexeme opened : Lexeme}
  {lexemes more : List Lexeme} {atoms : List Atom} {content : Formula} {cause : Cause}
  {error : ParseError} {bound : Nat}

namespace Lexeme

/-- The lexeme opens a group that the source does not close.  A fence has its delimiter next. -/
inductive Unclosed (opened : Lexeme) : List Lexeme → Cause → Prop
  | brace : opened.token = .braceOpen → Unclosed opened [] .unbalancedBraces
  | fence {delimiter : Lexeme} {glyph : String} :
      opened.token = .command "left" → Delimiter.glyph? delimiter.token = some glyph →
      Unclosed opened [delimiter] .missingRight
  | table {environment : Environment} :
      opened.token = .environmentBegin environment → Unclosed opened [] (.missingEnd environment)

/-- The lexeme closes a group or separates cells, where no group is open.  A fence has its delimiter
next. -/
inductive Stray (lexeme : Lexeme) : List Lexeme → Cause → Prop
  | brace : lexeme.token = .braceClose → Stray lexeme [] .unbalancedBraces
  | fence {delimiter : Lexeme} {glyph : String} :
      lexeme.token = .command "right" → Delimiter.glyph? delimiter.token = some glyph →
      Stray lexeme [delimiter] .missingLeft
  | table {environment : Environment} :
      lexeme.token = .environmentEnd environment → Stray lexeme [] (.missingBegin environment)
  | column : lexeme.token = .columnMark → Stray lexeme [] (.misplacedSeparator .column)
  | row : lexeme.token = .command "\\" → Stray lexeme [] (.misplacedSeparator .row)

theorem Unclosed.shift (h : opened.Unclosed more cause) (count : Nat) :
    (opened.shift count).Unclosed (more.map (Lexeme.shift count)) cause := by
  cases h with
  | brace htoken => exact .brace htoken
  | fence htoken hglyph => exact .fence htoken hglyph
  | table htoken => exact .table htoken

theorem Stray.shift (h : lexeme.Stray more cause) (count : Nat) :
    (lexeme.shift count).Stray (more.map (Lexeme.shift count)) cause := by
  cases h with
  | brace htoken => exact .brace htoken
  | fence htoken hglyph => exact .fence htoken hglyph
  | table htoken => exact .table htoken
  | column htoken => exact .column htoken
  | row htoken => exact .row htoken

theorem Unclosed.not_closes (h : opened.Unclosed more cause) :
    context.closes opened.token = false := by
  cases h with
  | brace htoken | table htoken => rw [htoken]; rfl
  | fence htoken _ =>
      rw [htoken]
      exact Context.closes_command Command.find?_left (by simp) (by simp)

theorem Stray.not_closes (h : lexeme.Stray more cause) (hgroups : context.groups = []) :
    context.closes lexeme.token = false := by
  cases h with
  | brace htoken | fence htoken _ | table htoken | column htoken | row htoken =>
      simp [htoken, Context.closes, hgroups]

end Lexeme

/-! ## The end of the source with one more error -/

structure State.Blames (s : State) (error : ParseError) (t : State) : Prop where
  rest : t.rest = []
  reported : t.reported = error :: s.reported

namespace Context

theorem peek_of_rest_nil (context : Context) (h : s.rest = []) :
    context.peek s = .ok (.ending context.sourceEnd) s := by
  rw [context.peek_of_nil (by rw [h]; rfl), h]
  rfl

theorem report_at_end (hmode : context.mode = .collect) (hend : middle.rest = [])
    (hreported : middle.reported = s.reported) (error : ParseError) :
    ∃ t, context.report error middle = .ok PUnit.unit t ∧ s.Blames error t :=
  ⟨_, report_collect hmode error middle, hend, congrArg (error :: ·) hreported⟩

end Context

namespace Readers

theorem row_of_rest_nil (h : s.rest = []) (context : Context) (atoms : List Atom) (bound : Nat) :
    (upTo bound).row context atoms s = .ok atoms.reverse s := by
  cases bound with
  | zero => rfl
  | succ bound =>
      change (upTo bound).rowStep context atoms s = _
      unfold Readers.rowStep
      rw [bind_of_ok (context.peek_of_rest_nil h)]
      exact congrFun (if_pos rfl) s

/-! ## Groups that are not closed -/

section

variable (hbound : s.rest.length < bound) (hrow : Row false lexemes content)
  (hroom : Formula.nest content < context.room) (hend : middle.rest = [])
include hbound hrow hroom hend

theorem inGroup_to_end {closer : Closer} (hcloser : closer ≠ .bracket)
    (htakes : s.Takes lexemes middle) (place : Span) :
    context.inGroup closer place (fun inside => (upTo bound).row inside []) s =
      .ok content middle := by
  have hindex : (closer == .bracket) = false := by simpa using hcloser
  exact (accepts_upTo bound).inGroup closer place hbound (hindex ▸ hrow) htakes
    (hend ▸ Context.stops_nil _) hroom

variable (hmode : context.mode = .collect)
include hmode

theorem braced_to_end (htakes : s.Takes lexemes middle) (opened : Span) :
    ∃ t, (upTo bound).braced context opened s = .ok content t ∧
      s.Blames ⟨.unbalancedBraces, opened⟩ t := by
  obtain ⟨t, hreport, hblames⟩ :=
    Context.report_at_end hmode hend htakes.reported ⟨.unbalancedBraces, opened⟩
  have hinside := inGroup_to_end hbound hrow hroom hend (by decide : Closer.brace ≠ .bracket)
    htakes opened
  refine ⟨t, ?_, hblames⟩
  unfold Readers.braced Readers.enclosed
  rw [bind_of_ok hinside, bind_of_ok (context.peek_of_rest_nil hend), if_neg (by nofun),
    bind_of_ok hreport]
  rfl

theorem fenced_to_end {delimiter : Lexeme} {glyph : String}
    (hglyph : Delimiter.glyph? delimiter.token = some glyph)
    (htakes : s.Takes (delimiter :: lexemes) middle) (opened : Span) :
    ∃ atom t, (upTo bound).fenced context opened s = .ok atom t ∧
      s.Blames ⟨.missingRight, opened⟩ t := by
  have hsplit : s.Takes ([delimiter] ++ lexemes) middle := htakes
  obtain ⟨first, hfirst, hrest⟩ := hsplit.split
  have hlength := hfirst.length_eq
  have hinside := inGroup_to_end (show first.rest.length < bound by omega) hrow hroom hend
    (by decide : Closer.right ≠ .bracket) hrest opened
  obtain ⟨t, hreport, hblames⟩ :=
    Context.report_at_end hmode hend htakes.reported ⟨.missingRight, opened⟩
  refine ⟨.group content (some ⟨glyph, ""⟩) ⟨opened.start, t.lastEnd⟩, t, ?_, hblames⟩
  unfold Readers.fenced
  rw [bind_of_ok (Accepts.delimiter .left opened hglyph hfirst), bind_of_ok hinside,
    bind_of_ok (context.peek_of_rest_nil hend), if_neg (by nofun), bind_of_ok hreport]
  rfl

theorem table_to_end (htakes : s.Takes lexemes middle) (environment : Environment)
    (opened : Span) :
    ∃ atom t, (upTo bound).table context environment opened s = .ok atom t ∧
      s.Blames ⟨.missingEnd environment, opened⟩ t := by
  obtain ⟨t, hreport, hblames⟩ :=
    Context.report_at_end hmode hend htakes.reported ⟨.missingEnd environment, opened⟩
  have hinside := inGroup_to_end hbound hrow hroom hend (by decide : Closer.cell ≠ .bracket)
    htakes opened
  have hgrid : (upTo bound).gridStep context environment opened [] [] s =
      .ok (closeGrid [] [content]) t := by
    unfold Readers.gridStep
    rw [bind_of_ok hinside, bind_of_ok (context.peek_of_rest_nil hend)]
    dsimp only [Lexeme.ending]
    rw [if_neg (by nofun), bind_of_ok hreport]
    rfl
  unfold Readers.table
  rw [bind_of_ok hgrid]
  exact ⟨_, t, rfl, hblames⟩

theorem lexemeStep_unclosed (hopened : opened.Unclosed more cause)
    (htakes : s.Takes (more ++ lexemes) middle) (atoms : List Atom) :
    ∃ atom t, (upTo bound).lexemeStep context opened atoms s = .ok (atom :: atoms) t ∧
      s.Blames ⟨cause, opened.span⟩ t := by
  cases hopened with
  | brace htoken =>
      obtain ⟨t, hread, hblames⟩ :=
        braced_to_end hbound hrow hroom hend hmode htakes opened.span
      refine ⟨.group content none ⟨opened.span.start, t.lastEnd⟩, t, ?_, hblames⟩
      unfold Readers.lexemeStep
      rw [htoken]
      exact bind_of_ok hread _
  | fence htoken hglyph =>
      obtain ⟨atom, t, hread, hblames⟩ :=
        fenced_to_end hbound hrow hroom hend hmode hglyph htakes opened.span
      refine ⟨atom, t, ?_, hblames⟩
      rw [lexemeStep_command htoken, command_left Command.find?_left, bind_of_ok hread]
      rfl
  | table htoken =>
      obtain ⟨atom, t, hread, hblames⟩ :=
        table_to_end hbound hrow hroom hend hmode htakes _ opened.span
      refine ⟨atom, t, ?_, hblames⟩
      unfold Readers.lexemeStep
      rw [htoken]
      exact bind_of_ok hread _

end

theorem row_unclosed (context : Context) (hmode : context.mode = .collect)
    (hopened : opened.Unclosed more cause) (hrow : Row false lexemes content)
    (hroom : Formula.nest content < context.room)
    (htakes : s.Takes (opened :: (more ++ lexemes)) middle) (hend : middle.rest = [])
    (hbound : s.rest.length < bound) (atoms : List Atom) :
    ∃ formula t, (upTo bound).row context atoms s = .ok formula t ∧ formula ≠ [] ∧
      s.Blames ⟨cause, opened.span⟩ t := by
  obtain ⟨lower, rfl⟩ : ∃ lower, bound = lower + 1 := ⟨bound - 1, by omega⟩
  have hshorter := htakes.shorter
  obtain ⟨atom, t, hread, hend, hreported⟩ := lexemeStep_unclosed
    (show (s.advanced opened).rest.length < lower by omega) hrow hroom hend hmode hopened
    htakes.tail atoms
  refine ⟨(atom :: atoms).reverse, t, ?_, ?_, hend, hreported⟩
  · change (upTo lower).rowStep context atoms s = _
    rw [rowStep_of_takes htakes hopened.not_closes, bind_of_ok hread]
    exact row_of_rest_nil hend context (atom :: atoms) lower
  · simp

/-! ## What closes no group -/

theorem lexemeStep_stray (hmode : context.mode = .collect) (hstray : lexeme.Stray more cause)
    (htakes : s.Takes more middle) (hend : middle.rest = []) (readers : Readers)
    (atoms : List Atom) :
    ∃ t, readers.lexemeStep context lexeme atoms s = .ok atoms t ∧
      s.Blames ⟨cause, lexeme.span⟩ t := by
  have halone : more = [] →
      ∃ t, (context.report ⟨cause, lexeme.span⟩ >>= fun _ => pure atoms) s = .ok atoms t ∧
        s.Blames ⟨cause, lexeme.span⟩ t := by
    rintro rfl
    rw [htakes.eq_of_nil] at hend
    obtain ⟨t, hreport, hblames⟩ :=
      Context.report_at_end hmode hend rfl ⟨cause, lexeme.span⟩
    exact ⟨t, bind_of_ok hreport _, hblames⟩
  cases hstray with
  | brace htoken | table htoken | column htoken =>
      unfold Readers.lexemeStep
      rw [htoken]
      exact halone rfl
  | row htoken =>
      rw [lexemeStep_command htoken]
      unfold Readers.command
      rw [Command.find?_newRow]
      exact halone rfl
  | @fence delimiter glyph htoken hglyph =>
      let reported : State := { s with reported := ⟨.missingLeft, lexeme.span⟩ :: s.reported }
      have hdelimiter : reported.Takes [delimiter] (reported.advanced delimiter) :=
        State.takes_advanced (s := reported) htakes.rest_eq_cons
      have hright : strayRight context lexeme.span s =
          .ok PUnit.unit (reported.advanced delimiter) := by
        unfold strayRight
        rw [bind_of_ok (Context.report_collect hmode _ s), bind_of_ok (hdelimiter.peek context),
          if_pos (by rw [hglyph]; rfl)]
        rfl
      refine ⟨reported.advanced delimiter, ?_, ?_, rfl⟩
      · rw [lexemeStep_command htoken]
        unfold Readers.command
        rw [Command.find?_right]
        exact bind_of_ok hright _
      · rw [htakes.eq_advanced] at hend
        exact hend

theorem row_stray (context : Context) (hmode : context.mode = .collect)
    (hgroups : context.groups = []) (hstray : lexeme.Stray more cause)
    (htakes : s.Takes (lexeme :: more) middle) (hend : middle.rest = [])
    (hbound : s.rest.length < bound) (atoms : List Atom) :
    ∃ t, (upTo bound).row context atoms s = .ok atoms.reverse t ∧
      s.Blames ⟨cause, lexeme.span⟩ t := by
  obtain ⟨lower, rfl⟩ : ∃ lower, bound = lower + 1 := ⟨bound - 1, by omega⟩
  obtain ⟨t, hread, hend, hreported⟩ :=
    lexemeStep_stray hmode hstray htakes.tail hend (upTo lower) atoms
  refine ⟨t, ?_, hend, hreported⟩
  change (upTo lower).rowStep context atoms s = _
  rw [rowStep_of_takes htakes (hstray.not_closes hgroups), bind_of_ok hread]
  exact row_of_rest_nil hend context atoms lower

end Readers

/-! ## Sources with one delimiter too many -/

namespace Formula

variable {source front back : String} {options : ReadingOptions} {formula : Formula}

theorem readAll_of_row
    (h : (Readers.upTo ((significantItems source).length + 1)).row
      (.ofSource .collect options source) [] { rest := significantItems source } = .ok formula t)
    (hkept : options.allowEmpty = true ∨ formula ≠ []) (hreported : t.reported = [error]) :
    readAll source options = .error [error] := by
  have hrun := (runReading_eq_root .collect options (Nat.lt_succ_self _)).trans
    (Readers.root_of_row_ok h hkept)
  exact readAll_of_reported hrun (by rw [hreported]; rfl) (by simp) (List.pairwise_singleton ..)

theorem readAll_unclosed
    (hitems : significantItems source = (opened :: (more ++ lexemes)).map .lexeme)
    (hopened : opened.Unclosed more cause) (hrow : Row false lexemes content)
    (hnest : nest content < options.maxDepth) :
    readAll source options = .error [⟨cause, opened.span⟩] := by
  have htakes := State.takes_all (s := { rest := significantItems source }) hitems
  obtain ⟨formula, t, hread, hne, hblames⟩ :=
    Readers.row_unclosed (.ofSource .collect options source) rfl hopened hrow hnest htakes rfl
      (Nat.lt_succ_self _) []
  exact readAll_of_row hread (.inr hne) hblames.reported

theorem readAll_unclosed_above (hexact : options.fillMissing = false)
    (hread : readUntilError back options = .ok formula) {count : Nat}
    (hitems : significantItems source =
      (opened :: more).map .lexeme ++ (significantItems back).map (Item.shift count))
    (hopened : opened.Unclosed more cause) :
    readAll source { options with maxDepth := options.maxDepth + 1 } =
      .error [⟨cause, opened.span⟩] := by
  obtain ⟨-, hnest, lexemes, hback, hrow⟩ := (readUntilError_eq_ok_iff hexact).mp hread
  have hsame : Lexeme.SameTokens (lexemes.map (Lexeme.shift count)) lexemes :=
    List.map_map.trans rfl
  obtain ⟨content, hcontent, herase⟩ := hrow.relocate hsame
  rw [hback, map_shift_lexemes, ← List.map_append] at hitems
  refine readAll_unclosed hitems hopened hcontent ?_
  rw [nest_eq_of_erase herase]
  exact Nat.lt_succ_of_le hnest

theorem readAll_unclosed_below (hexact : options.fillMissing = false)
    (hread : readUntilError front options = .ok formula)
    (hitems : significantItems back = (opened :: more).map .lexeme)
    (hopened : opened.Unclosed more cause) (hroom : 0 < options.maxDepth) :
    readAll (front ++ "\n" ++ back) options =
      .error [⟨cause, opened.span.shift (front.utf8ByteSize + 1)⟩] := by
  obtain ⟨bound, s, hbound, hrest, hreported, hbelow⟩ := row_below back hexact hread
  rw [hitems, map_shift_lexemes] at hrest
  have htakes := State.takes_all hrest
  rw [List.map_cons, ← List.append_nil (more.map _)] at htakes
  obtain ⟨found, t, hrow, hne, hblames⟩ :=
    Readers.row_unclosed (.ofSource .collect options (front ++ "\n" ++ back)) rfl
      (hopened.shift _) (.plain .nil) (nest_nil ▸ hroom) htakes rfl
      (by simpa [hrest, hitems] using hbound) formula.reverse
  have hone := hblames.reported
  rw [hreported] at hone
  exact readAll_of_row (hbelow.trans hrow) (.inr hne) hone

theorem readAll_stray_below (hexact : options.fillMissing = false)
    (hread : readUntilError front options = .ok formula)
    (hitems : significantItems back = (lexeme :: more).map .lexeme)
    (hstray : lexeme.Stray more cause) :
    readAll (front ++ "\n" ++ back) options =
      .error [⟨cause, lexeme.span.shift (front.utf8ByteSize + 1)⟩] := by
  obtain ⟨hkept, -⟩ := (readUntilError_eq_ok_iff hexact).mp hread
  obtain ⟨bound, s, hbound, hrest, hreported, hbelow⟩ := row_below back hexact hread
  rw [hitems, map_shift_lexemes] at hrest
  obtain ⟨t, hrow, hblames⟩ :=
    Readers.row_stray (.ofSource .collect options (front ++ "\n" ++ back)) rfl rfl
      (hstray.shift _) (State.takes_all hrest) rfl (by simpa [hrest, hitems] using hbound)
      formula.reverse
  have hone := hblames.reported
  rw [hreported] at hone
  rw [List.reverse_reverse] at hrow
  exact readAll_of_row (hbelow.trans hrow) hkept hone

theorem readUntilError_deeper (hexact : options.fillMissing = false)
    (hread : readUntilError source options = .ok formula) :
    readUntilError source { options with maxDepth := options.maxDepth + 1 } = .ok formula := by
  obtain ⟨hkept, hnest, hderives⟩ := (readUntilError_eq_ok_iff hexact).mp hread
  have hexact' : ({ options with maxDepth := options.maxDepth + 1 } : ReadingOptions).fillMissing =
    false := hexact
  exact (readUntilError_eq_ok_iff hexact').mpr ⟨hkept, Nat.le_succ_of_le hnest, hderives⟩

theorem significantItems_left (source : String) :
    significantItems ("\\left(" ++ source) =
      [⟨.command "left", ⟨0, 5⟩, "\\left"⟩, ⟨.character '(', ⟨5, 6⟩, "("⟩].map .lexeme ++
        (significantItems source).map (Item.shift 6) := by
  have hletter : NoLetter ("(" ++ source).toList := by
    rw [String.toList_append]
    exact noLetter_cons (c := '(') (by decide) _
  have hleft : Token.Spelling (.command "left") "\\left".toList ("(" ++ source).toList :=
    .command (by decide) fun _ => hletter
  have hparen : Token.Spelling (.character '(') "(".toList source.toList := .character rfl
  have hmoved : Item.shift "\\left".utf8ByteSize ∘ Item.shift "(".utf8ByteSize =
      Item.shift 6 := funext fun item => Item.shift_shift 1 5 item
  have hitems := significantItems_cons hleft rfl
  rwa [significantItems_cons hparen rfl, List.map_cons, List.map_map, hmoved,
    ← String.append_assoc] at hitems

theorem unmatched_reported (hexact : options.fillMissing = false)
    (hread : read source options = .ok formula) :
    let deeper : ReadingOptions := { options with maxDepth := options.maxDepth + 1 }
    let place := source.utf8ByteSize + 1
    readAll ("\x7b" ++ source) deeper = .error [⟨.unbalancedBraces, ⟨0, 1⟩⟩] ∧
    readAll (source ++ "\n" ++ "\x7b") deeper =
      .error [⟨.unbalancedBraces, ⟨place, place + 1⟩⟩] ∧
    readAll (source ++ "\n" ++ "\x7d") deeper =
      .error [⟨.unbalancedBraces, ⟨place, place + 1⟩⟩] ∧
    readAll ("\\left(" ++ source) deeper = .error [⟨.missingRight, ⟨0, 5⟩⟩] ∧
    readAll (source ++ "\n" ++ "\\right)") deeper = .error [⟨.missingLeft, ⟨place, place + 6⟩⟩] ∧
    (∀ environment : Environment, readAll (environment.opening ++ source) deeper =
      .error [⟨.missingEnd environment, ⟨0, environment.opening.utf8ByteSize⟩⟩]) ∧
    (∀ environment : Environment, readAll (source ++ "\n" ++ environment.ending) deeper =
      .error [⟨.missingBegin environment, ⟨place, place + environment.ending.utf8ByteSize⟩⟩]) ∧
    readAll (source ++ "\n" ++ "&") deeper =
      .error [⟨.misplacedSeparator .column, ⟨place, place + 1⟩⟩] ∧
    readAll (source ++ "\n" ++ "\\\\") deeper =
      .error [⟨.misplacedSeparator .row, ⟨place, place + 2⟩⟩] := by
  intro deeper place
  rw [read_eq_ok_iff] at hread
  have hexact' : deeper.fillMissing = false := hexact
  have hdeeper : readUntilError source deeper = .ok formula := readUntilError_deeper hexact hread
  have habove : ∀ {token : Token} {text : String} {cause : Cause},
      Token.Spelling token text.toList source.toList → token.isTrivia = false →
      Lexeme.Unclosed ⟨token, ⟨0, text.utf8ByteSize⟩, text⟩ [] cause →
      readAll (text ++ source) deeper = .error [⟨cause, ⟨0, text.utf8ByteSize⟩⟩] :=
    fun hspelling htrivia hopened =>
      readAll_unclosed_above hexact hread (significantItems_cons hspelling htrivia) hopened
  have hbelow : ∀ {token : Token} {text : String} {cause : Cause},
      Token.Spelling token text.toList [] → token.isTrivia = false →
      Lexeme.Stray ⟨token, ⟨0, text.utf8ByteSize⟩, text⟩ [] cause →
      readAll (source ++ "\n" ++ text) deeper =
        .error [⟨cause, ⟨place, place + text.utf8ByteSize⟩⟩] :=
    fun hspelling htrivia hstray => by
      rw [readAll_stray_below hexact' hdeeper (significantItems_single hspelling htrivia) hstray,
        Span.shift_of_start]
  refine ⟨habove (.character rfl) rfl (.brace rfl), ?_, hbelow (.character rfl) rfl (.brace rfl),
    ?_, ?_, fun environment => habove (environment.spelling_opening _) rfl (.table rfl),
    fun environment => hbelow (environment.spelling_ending _) rfl (.table rfl),
    hbelow (.character rfl) rfl (.column rfl),
    hbelow (.command (by decide) fun _ => by nofun) rfl (.row rfl)⟩
  · have hitems : significantItems "\x7b" = [.lexeme ⟨.braceOpen, ⟨0, 1⟩, "\x7b"⟩] := by
      decide +kernel
    rw [readAll_unclosed_below hexact' hdeeper hitems (.brace rfl) (Nat.succ_pos _),
      Span.shift_of_start]
  · exact readAll_unclosed_above hexact hread (significantItems_left source) (.fence rfl rfl)
  · have hitems : significantItems "\\right)" =
        [.lexeme ⟨.command "right", ⟨0, 6⟩, "\\right"⟩, .lexeme ⟨.character ')', ⟨6, 7⟩, ")"⟩] := by
      decide +kernel
    rw [readAll_stray_below hexact' hdeeper hitems (.fence rfl rfl), Span.shift_of_start]

theorem fence_unmatched_reported :
    let source := "\\left[\x7bx\x7d\\right] % \x7b"
    let formula : Formula :=
      [.group [.group [.symbol .ordinary "x" ⟨7, 8⟩] none ⟨6, 9⟩] (some ⟨"[", "]"⟩) ⟨0, 16⟩]
    read source { maxDepth := 2 } = .ok formula ∧
    readAll ("\\left(" ++ source) { maxDepth := 3 } = .error [⟨.missingRight, ⟨0, 5⟩⟩] ∧
    readAll (source ++ "\n" ++ "\\right)") { maxDepth := 3 } =
      .error [⟨.missingLeft, ⟨21, 27⟩⟩] := by
  intro source formula
  have hread : read source { maxDepth := 2 } = .ok formula := by decide +kernel
  obtain ⟨-, -, -, hleft, hright, -⟩ := unmatched_reported rfl hread
  exact ⟨hread, hleft, hright⟩

end Formula

end TexMath
