import Formulary.Proofs.Outcome
import Formulary.Proofs.Spelling
import Formulary.Proofs.Tiling

/-!
# Blanks keep texts apart

A blank behind a text is like the end of the text: no lexeme reaches across it, and no lexeme or
error is another one because of it. (The same goes for any character that neither a name nor a
number nor a sign goes on with, such as a parenthesis.) So what a scan makes of two texts with
blanks between them is what it makes of each. The one trace of the second text is in the span of a
sign `<` or `>` at the very end of the first, which no longer goes one place too far.

A text that was taken as a lexeme is taken as the same lexeme when it stands alone. A source may
therefore be cut into the texts of its tokens and put together again with blanks between them.
-/

namespace Formulary

open Formulary.Text (isBlank isPlainDigit)

/-- A token that stands further behind. -/
def Token.shift (offset : Nat) (token : Token) : Token :=
  { token with start := token.start + offset, stop := token.stop + offset }

/-- What a token says, with the text that says it. -/
def Token.content (token : Token) : Lexeme × String := (token.lexeme, token.text)

/-- The same error further behind. -/
def CompileError.shift (offset : Nat) (error : CompileError) : CompileError :=
  { error with start := error.start + offset, stop := error.stop + offset }

@[simp] theorem Token.content_cut (length : Nat) (token : Token) :
    (token.cut length).content = token.content := rfl

@[simp] theorem Token.content_shift (offset : Nat) (token : Token) :
    (token.shift offset).content = token.content := rfl

/-! ## Literals that stand alone -/

namespace Decimal

/-- A text that is cut behind a run of characters has the same run at its head. -/
theorem takeWhile_take {test : Char → Bool} {text : List Char} {count : Nat}
    (enough : (text.takeWhile test).length ≤ count) :
    (text.take count).takeWhile test = text.takeWhile test := by
  rw [← List.take_takeWhile, List.take_of_length_le enough]

/-- A text that is cut behind its mantissa has the same mantissa. -/
theorem mantissaLength_take {text : List Char} {count : Nat}
    (enough : mantissaLength text ≤ count) :
    mantissaLength (text.take count) = mantissaLength text := by
  obtain ⟨whole, wholeLength⟩ : ∃ whole, (text.takeWhile isPlainDigit).length = whole := ⟨_, rfl⟩
  have reaches : whole ≤ mantissaLength text := by
    simp only [mantissaLength, wholeLength]
    split
    case h_1 => split <;> omega
    case h_2 => exact Nat.le_refl _
  simp only [mantissaLength, takeWhile_take (wholeLength.trans_le (reaches.trans enough)),
    wholeLength, List.drop_take] at enough ⊢
  cases behind : text.drop whole with
  | nil => rw [List.take_nil]
  | cons next more =>
      by_cases point : next = '.'
      · subst point
        simp only [behind] at enough ⊢
        cases left : count - whole with
        | zero =>
            split at enough
            case isTrue empty => simp [empty]
            case isFalse => omega
        | succ further =>
            have fraction : (more.takeWhile isPlainDigit).length ≤ further := by
              split at enough <;> omega
            simp only [List.take_succ_cons, takeWhile_take fraction]
      · cases count - whole <;> simp [point]

/-- A text that is cut behind its exponent has the same exponent. -/
theorem exponentLength_take {text : List Char} {count : Nat}
    (enough : exponentLength text ≤ count) :
    exponentLength (text.take count) = exponentLength text := by
  match text, count with
  | [], _ => rw [List.take_nil]
  | marker :: rest, 0 => rw [Nat.le_zero.mp enough, List.take_zero, exponentLength]
  | [marker], count + 1 => rw [List.take_succ_cons, List.take_nil]
  | marker :: sign :: digits, 1 =>
      simp only [exponentLength, List.take_succ_cons, List.take_zero] at enough ⊢
      split
      case isTrue marks =>
          rw [if_pos marks] at enough
          split at enough <;> split at enough <;> simp_all
      case isFalse => rfl
  | marker :: sign :: digits, count + 2 =>
      simp only [exponentLength, List.take_succ_cons] at enough ⊢
      split
      case isTrue marks =>
          rw [if_pos marks] at enough
          split
          case isTrue signed =>
              rw [if_pos signed] at enough
              have digitsFit : (digits.takeWhile isPlainDigit).length ≤ count := by
                split at enough <;> omega
              rw [takeWhile_take digitsFit]
          case isFalse unsigned =>
              rw [if_neg unsigned] at enough
              have digitsFit : ((sign :: digits).takeWhile isPlainDigit).length ≤ count + 1 := by
                split at enough <;> omega
              rw [← List.take_succ_cons, takeWhile_take digitsFit]
      case isFalse => rfl

/-- A literal is a literal on its own. -/
theorem literalLength_take (text : List Char) :
    literalLength (text.take (literalLength text)) = literalLength text := by
  cases mantissa : mantissaLength text with
  | zero =>
      have none : literalLength text = 0 := by simp only [literalLength, mantissa]
      rw [none, List.take_zero]
      rfl
  | succ before =>
      have whole : literalLength text =
          before + 1 + exponentLength (text.drop (before + 1)) := by
        simp only [literalLength, mantissa]
      have kept : mantissaLength (text.take (literalLength text)) = before + 1 := by
        rw [mantissaLength_take (by omega), mantissa]
      have behind : (text.take (literalLength text)).drop (before + 1) =
          (text.drop (before + 1)).take (exponentLength (text.drop (before + 1))) := by
        rw [whole, List.drop_take, Nat.add_sub_cancel_left]
      have alone : literalLength (text.take (literalLength text)) =
          before + 1 + exponentLength ((text.take (literalLength text)).drop (before + 1)) := by
        simp only [literalLength.eq_def (text.take _), kept]
      rw [alone, behind, exponentLength_take (Nat.le_refl _), whole]

end Decimal

namespace Lexer

/-! ## What stands before a blank -/

/-- Whether a text that is not empty keeps off what stands before it: neither a name nor a number
goes on with it, nor does a sign, of which only an equals sign can be the second character. -/
def Severs (text : List Char) : Prop :=
  Halts text ∧ ∃ next more, text = next :: more ∧ next ≠ '='

/-- Whether a text starts with a blank. -/
def Blanked (text : List Char) : Prop :=
  ∃ blank more, text = blank :: more ∧ isBlank blank = true

/-- Neither a name nor a number goes on with a blank. -/
theorem Blanked.halts {text : List Char} (blanked : Blanked text) : Halts text := by
  obtain ⟨blank, more, rfl, isBlank⟩ := blanked
  have unnamed : Text.isAlphanumeric blank = false :=
    Bool.eq_false_iff.mpr fun named =>
      Bool.eq_false_iff.mp (Text.isBlank_of_isAlphanumeric named) isBlank
  have noMark : blank ∉ ['_', '.', '+', '-'] := fun member =>
    List.any_eq_false.mp (by decide) blank member isBlank
  simp only [List.mem_cons, not_or] at noMark
  refine ⟨?_, ?_⟩
  · simp [continuesName, unnamed, noMark.1]
  · simpa using noMark.2

theorem Blanked.severs {text : List Char} (blanked : Blanked text) : Severs text := by
  refine ⟨blanked.halts, ?_⟩
  obtain ⟨blank, more, rfl, isBlank⟩ := blanked
  refine ⟨blank, more, rfl, ?_⟩
  rintro rfl
  exact absurd isBlank (by decide)

variable {scope : Scope} {tail : List Char}

/-- A malformed number does not go on with a text that halts it. -/
theorem gluedLength_append (previous : Char) (text : List Char) (halts : Halts tail) :
    gluedLength previous (text ++ tail) = gluedLength previous text := by
  induction text generalizing previous with
  | nil =>
      cases tail with
      | nil => rfl
      | cons next more =>
          have noSign := not_or.mp halts.noSign
          simp [gluedLength, halts.1, halts.breaks.2, noSign.1, noSign.2]
  | cons first rest inductionHypothesis =>
      simp only [List.cons_append, gluedLength, inductionHypothesis]

theorem number_append (text : List Char) (halts : Halts tail) :
    number (text ++ tail) = number text := by
  have fits := Decimal.literalLength_le text
  unfold number
  rw [Decimal.literalLength_append text halts]
  split
  case h_1 => rfl
  case h_2 =>
      rw [List.take_append_of_le_length fits, List.drop_append_of_le_length fits]
      cases text.drop (Decimal.literalLength text) with
      | nil =>
          cases tail with
          | nil => rfl
          | cons next more => simp [halts.1, halts.breaks.2]
      | cons next more =>
          simp only [List.cons_append, ← gluedLength_append _ (next :: more) halts]

/-- A sign takes what there is of its window, and it sees nothing in it that makes it longer. -/
theorem symbol?_append (first : Char) (rest : List Char) (severs : Severs tail) :
    symbol? (first :: (rest ++ tail)) =
      (symbol? (first :: rest)).map fun found => (found.1, min found.2 (rest.length + 1)) := by
  by_cases sign : first ∈ signCharacters
  case neg => rw [symbol?_eq_none sign, symbol?_eq_none sign, Option.map_none]
  case pos =>
      obtain ⟨-, next, more, rfl, noEqual⟩ := severs
      simp only [signCharacters, List.mem_cons, List.not_mem_nil, or_false] at sign
      -- only the character behind it can make a sign longer, and only if it is an equals sign
      cases rest with
      | nil =>
          rcases sign with rfl | rfl | rfl | rfl | rfl | rfl | rfl | rfl | rfl | rfl <;>
            simp [symbol?, noEqual]
      | cons second behind =>
          rcases sign with rfl | rfl | rfl | rfl | rfl | rfl | rfl | rfl | rfl | rfl <;>
            by_cases equal : second = '=' <;> simp [symbol?, equal]

/-- The lexeme at the head of a text is the same before a text that severs it. It takes no more than
the text. -/
theorem lexeme_append (position : Nat) (first : Char) (rest : List Char) (severs : Severs tail) :
    lexeme scope position first (rest ++ tail) =
      (lexeme scope position first rest).map fun found =>
        (found.1, min found.2 (rest.length + 1)) := by
  have numbers := number_append (first :: rest) severs.1
  rw [List.cons_append] at numbers
  simp only [lexeme, symbol?_append first rest severs, numbers,
    takeWhile_append_of_breaks rest severs.1.breaks]
  cases symbol : symbol? (first :: rest) with
  | some found => rfl
  | none =>
      have noSign := not_isLoneSign_of_symbol symbol
      have name := (taken_of_name noSign).within noSign
      have cut : ∀ length ≤ (first :: rest).length,
          (first :: (rest ++ tail)).take length = (first :: rest).take length :=
        fun _ fits => List.take_append_of_le_length fits
      simp only [Option.map_none, cut _ name]
      split
      case isTrue =>
          cases read : number (first :: rest) with
          | error length =>
              obtain ⟨_, fits⟩ := length_of_malformed (List.cons_ne_nil first rest) read
              simp only [cut length fits]
              rfl
          | ok found =>
              have fits : found.2 ≤ rest.length + 1 := (taken_of_number noSign read).within noSign
              simp only [Except.map, Nat.min_eq_left fits]
      case isFalse =>
          split
          case isTrue =>
              cases scope.resolve (String.ofList
                  ((first :: rest).take ((rest.takeWhile continuesName).length + 1))) with
              | none => rfl
              | some found =>
                  rw [List.length_cons] at name
                  simp only [Except.map, Nat.min_eq_left name]
          case isFalse => rfl

/-! ## Scans of several texts -/

theorem scan_blank {first : Char} (skipped : isBlank first = true) (position : Nat)
    (rest : List Char) : scan scope position (first :: rest) = scan scope (position + 1) rest := by
  rw [scan, if_pos skipped]

/-- At a visible character a scan takes one lexeme and goes on behind it. -/
theorem scan_visible {first : Char} (visible : ¬isBlank first = true) (position : Nat)
    (rest : List Char) :
    scan scope position (first :: rest) = (do
      let (found, length) ← lexeme scope position first rest
      let tokens ← scan scope (position + length) (rest.drop (length - 1))
      return ⟨found, String.ofList ((first :: rest).take length), position, position + length⟩ ::
        tokens) := by
  rw [scan, if_neg visible]
  cases lexeme scope position first rest with
  | error error => rfl
  | ok found =>
      simp only [Outcome.ok_bind]
      cases scan scope (position + found.2) (rest.drop (found.2 - 1)) <;> rfl

/-- What a scan makes of a text that goes on. -/
def scanBefore (scope : Scope) (position : Nat) (text tail : List Char) :
    Except CompileError (List Token) := do
  let tokens ← scan scope position text
  let more ← scan scope (position + text.length) tail
  return tokens.map (Token.cut (position + text.length)) ++ more

/-- A scan of a text and one that severs it is a scan of the text and one of what follows. -/
theorem scan_append (position : Nat) (text : List Char) (severs : Severs tail) :
    scan scope position (text ++ tail) = scanBefore scope position text tail := by
  match text with
  | [] =>
      simp only [scanBefore, scan, List.nil_append, List.length_nil, Nat.add_zero, List.map_nil,
        Outcome.ok_bind]
      cases scan scope position tail <;> rfl
  | first :: rest =>
      by_cases skipped : isBlank first = true
      · have later := scan_append (position + 1) rest severs
        have reached : position + 1 + rest.length = position + (rest.length + 1) := by omega
        rw [List.cons_append, scan_blank skipped, later, scanBefore, scanBefore,
          scan_blank skipped, List.length_cons, reached]
      · rw [List.cons_append, scan_visible skipped, scanBefore, scan_visible skipped,
          lexeme_append position first rest severs]
        cases read : lexeme scope position first rest with
        | error error => rfl
        | ok found =>
            obtain ⟨found, length⟩ := found
            have taken := taken_of_lexeme read
            by_cases lone : IsLoneSign (first :: rest)
            · -- The sign goes one place too far, and there is nothing left of the text.
              obtain rfl := taken.beyond lone
              obtain rfl : rest = [] := by rcases lone with single | single <;> cases single <;> rfl
              simp [Except.map, scan, Token.cut]
            · have fits : length ≤ rest.length + 1 := taken.within lone
              have positive := taken.positive
              have later := scan_append (position + length) (rest.drop (length - 1)) severs
              have reached : position + length + (rest.drop (length - 1)).length =
                  position + (rest.length + 1) := by
                rw [List.length_drop]
                omega
              simp only [Except.map, Outcome.ok_bind, Nat.min_eq_left fits,
                List.drop_append_of_le_length (show length - 1 ≤ rest.length by omega), later,
                scanBefore, reached, List.length_cons]
              have same : (first :: (rest ++ tail)).take length = (first :: rest).take length := by
                rw [← List.cons_append, List.take_append_of_le_length fits]
              have uncut : min (position + length) (position + (rest.length + 1)) =
                  position + length := by omega
              cases scan scope (position + length) (rest.drop (length - 1)) with
              | error error => rfl
              | ok tokens =>
                  cases scan scope (position + (rest.length + 1)) tail with
                  | error error => rfl
                  | ok more => simp [Token.cut, same, uncut]
termination_by text.length

/-- Blanks before a text are skipped. -/
theorem scan_blanks (position : Nat) {blanks : List Char} (text : List Char)
    (blank : ∀ character ∈ blanks, isBlank character = true) :
    scan scope position (blanks ++ text) = scan scope (position + blanks.length) text := by
  induction blanks generalizing position with
  | nil => rfl
  | cons first rest inductionHypothesis =>
      rw [List.forall_mem_cons] at blank
      rw [List.cons_append, scan_blank blank.1, inductionHypothesis _ blank.2, List.length_cons,
        Nat.add_assoc, Nat.add_comm 1]

/-- A computation of tokens whose places are moved. -/
def shifted (offset : Nat) (outcome : Except CompileError (List Token)) :
    Except CompileError (List Token) :=
  (outcome.map (List.map (Token.shift offset))).mapError (CompileError.shift offset)

theorem lexeme_shift (offset position : Nat) (first : Char) (rest : List Char) :
    lexeme scope (position + offset) first rest =
      (lexeme scope position first rest).mapError (CompileError.shift offset) := by
  simp only [lexeme]
  split
  case h_1 => rfl
  case h_2 =>
      split
      case isTrue => split <;> simp [Except.mapError, CompileError.shift, Nat.add_right_comm]
      case isFalse =>
          split
          case isTrue => split <;> simp [Except.mapError, CompileError.shift, Nat.add_right_comm]
          case isFalse => simp [Except.mapError, CompileError.shift, Nat.add_right_comm]

/-- A scan does not depend on where the text stands, except for the places it gives. -/
theorem scan_shift (offset position : Nat) (text : List Char) :
    scan scope (position + offset) text = shifted offset (scan scope position text) := by
  match text with
  | [] => simp only [scan, shifted, Except.map, Except.mapError, List.map_nil]
  | first :: rest =>
      by_cases skipped : isBlank first = true
      · rw [scan_blank skipped, scan_blank skipped, Nat.add_right_comm, scan_shift]
      · rw [scan_visible skipped, scan_visible skipped, lexeme_shift]
        cases read : lexeme scope position first rest with
        | error error => rfl
        | ok found =>
            have positive := (taken_of_lexeme read).positive
            simp only [Except.mapError, Outcome.ok_bind]
            rw [Nat.add_right_comm, scan_shift]
            cases scan scope (position + found.2) (rest.drop (found.2 - 1)) <;> rfl
termination_by text.length

/-! ## Lexemes that stand alone -/

theorem symbol?_take {text : List Char} {found : Lexeme} {length : Nat}
    (read : symbol? text = some (found, length)) :
    ∃ reach, symbol? (text.take length) = some (found, reach) ∧ length ≤ reach := by
  unfold symbol? at read
  split at read <;> cases read <;> exact ⟨_, rfl, by decide⟩

theorem number_take {text : List Char} {value : Float} {length : Nat}
    (read : number text = .ok (value, length)) :
    number (text.take length) = .ok (value, length) := by
  obtain ⟨rfl, positive, rfl⟩ := literal_of_number read
  have nothing : (text.take (Decimal.literalLength text)).drop (Decimal.literalLength text) = [] :=
    List.drop_eq_nil_of_le (List.length_take_le _ _)
  unfold number
  rw [Decimal.literalLength_take]
  split
  case h_1 none => omega
  case h_2 => rw [nothing, List.take_take, Nat.min_self]

/-- What a lexeme takes of a text is read as this lexeme, as a whole. -/
theorem lexeme_take {position length : Nat} {first : Char} {rest : List Char} {found : Lexeme}
    (read : lexeme scope position first rest = .ok (found, length)) (other : Nat) :
    ∃ reach, lexeme scope other first (rest.take (length - 1)) = .ok (found, reach) ∧
      length ≤ reach := by
  have taken : (first :: rest).take length = first :: rest.take (length - 1) := by
    rw [← List.take_succ_cons, Nat.sub_add_cancel (taken_of_lexeme read).positive]
  simp only [lexeme] at read ⊢
  split at read
  case h_1 symbol =>
      cases read
      obtain ⟨reach, alone, enough⟩ := symbol?_take symbol
      rw [taken] at alone
      exact ⟨reach, by rw [alone], enough⟩
  case h_2 =>
      split at read
      case isTrue starts =>
          have noSign := symbol?_of_startsNumber starts (rest.take (length - 1))
          split at read
          case h_1 number =>
              cases read
              have alone := number_take number
              rw [taken] at alone
              exact ⟨length, by simp only [noSign, starts, if_true, alone], Nat.le_refl _⟩
          case h_2 => cases read
      case isFalse noNumber =>
          split at read
          case isTrue starts =>
              have noSign := symbol?_of_startsName starts (rest.take (length - 1))
              split at read
              case h_1 resolved =>
                  cases read
                  have whole : (rest.take (rest.takeWhile continuesName).length).takeWhile
                      continuesName = rest.takeWhile continuesName :=
                    Decimal.takeWhile_take (Nat.le_refl _)
                  refine ⟨_, ?_, Nat.le_refl _⟩
                  simp only [Nat.add_sub_cancel, List.take_succ_cons] at resolved noSign ⊢
                  simp only [noSign, if_neg noNumber, if_pos starts, whole, List.take_take,
                    Nat.min_self, resolved]
              case h_2 => cases read
          case isFalse => cases read

/-- What a lexeme takes of a text is scanned as one token. -/
theorem scan_take {position length : Nat} {first : Char} {rest : List Char} {found : Lexeme}
    (visible : isBlank first = false)
    (read : lexeme scope position first rest = .ok (found, length)) (other : Nat) :
    ∃ token, scan scope other ((first :: rest).take length) = .ok [token] ∧
      token.content = (found, String.ofList ((first :: rest).take length)) := by
  obtain ⟨reach, alone, enough⟩ := lexeme_take read other
  obtain ⟨more, rfl⟩ : ∃ more, length = more + 1 :=
    ⟨length - 1, (Nat.sub_add_cancel (taken_of_lexeme read).positive).symm⟩
  rw [Nat.add_sub_cancel] at alone
  have whole : (first :: rest.take more).take reach = first :: rest.take more :=
    List.take_of_length_le (by simp only [List.length_cons, List.length_take]; omega)
  have nothing : (rest.take more).drop (reach - 1) = [] :=
    List.drop_eq_nil_of_le (by rw [List.length_take]; omega)
  rw [List.take_succ_cons, scan_visible (Bool.eq_false_iff.mp visible)]
  simp only [alone, Outcome.ok_bind, nothing, whole, scan]
  exact ⟨_, rfl, rfl⟩

/-! ## Texts between blanks -/

/-- Whether a scan takes tokens of some contents from a text, wherever it stands. -/
def Gives (scope : Scope) (text : List Char) (contents : List (Lexeme × String)) : Prop :=
  ∀ position, ∃ tokens, scan scope position text = .ok tokens ∧
    tokens.map Token.content = contents

theorem gives_blanks {blanks : List Char} (blank : ∀ character ∈ blanks, isBlank character = true) :
    Gives scope blanks [] := by
  intro position
  refine ⟨[], ?_, rfl⟩
  rw [← blanks.append_nil, scan_blanks position [] blank, scan]

theorem Gives.append {text : List Char} {contents others : List (Lexeme × String)}
    (first : Gives scope text contents) (second : Gives scope tail others)
    (blanked : Blanked tail) : Gives scope (text ++ tail) (contents ++ others) := by
  intro position
  obtain ⟨tokens, scanned, rfl⟩ := first position
  obtain ⟨more, scannedMore, rfl⟩ := second (position + text.length)
  refine ⟨tokens.map (Token.cut (position + text.length)) ++ more, ?_, ?_⟩
  · rw [scan_append position text blanked.severs, scanBefore, scanned, scannedMore]
    rfl
  · simp

theorem Gives.blank {blank : Char} {text : List Char} {contents : List (Lexeme × String)}
    (gives : Gives scope text contents) (isBlank : isBlank blank = true) :
    Gives scope (blank :: text) contents := by
  intro position
  rw [scan_blank isBlank]
  exact gives (position + 1)

/-- The text of a token gives the token. -/
theorem Scanned.gives {position : Nat} {text : List Char} {tokens : List Token}
    (scanned : Scanned scope position text tokens) :
    ∀ token ∈ tokens, Gives scope token.text.toList [token.content] := by
  induction scanned with
  | finish => simp
  | blank _ _ inductionHypothesis => exact inductionHypothesis
  | token visible read _ inductionHypothesis =>
      refine List.forall_mem_cons.mpr ⟨fun position => ?_, inductionHypothesis⟩
      obtain ⟨again, alone, same⟩ := scan_take visible read position
      exact ⟨[again], by rw [String.toList_ofList, alone], by rw [List.map_singleton, same]; rfl⟩

/-- The texts of tokens with spaces between them, and with blanks behind them, give the tokens. -/
theorem gives_joined {tokens : List Token} {trailing : List Char}
    (each : ∀ token ∈ tokens, Gives scope token.text.toList [token.content])
    (blank : ∀ character ∈ trailing, isBlank character = true) :
    Gives scope ((" ".intercalate (tokens.map Token.text)).toList ++ trailing)
      (tokens.map Token.content) := by
  induction tokens with
  | nil => exact gives_blanks blank
  | cons token rest inductionHypothesis =>
      rw [List.forall_mem_cons] at each
      have later := inductionHypothesis each.2
      cases rest with
      | nil =>
          cases trailing with
          | nil => simpa using each.1
          | cons first more =>
              have alone := each.1.append (gives_blanks blank)
                ⟨first, more, rfl, blank first List.mem_cons_self⟩
              simpa using alone
      | cons second others =>
          have spaced := each.1.append (later.blank (show isBlank ' ' = true by decide))
            ⟨' ', _, rfl, by decide⟩
          simpa [String.intercalate_cons_cons, List.append_assoc] using spaced

end Lexer

/-- The tokens of two sources with blanks between them. -/
theorem tokenize_append (scope : Scope) (first second : String) {blanks : String}
    (some : blanks ≠ "") (blank : ∀ character ∈ blanks.toList, isBlank character = true) :
    tokenize scope (first ++ blanks ++ second) = (do
      let tokens ← tokenize scope first
      let more ← Lexer.shifted (first.length + blanks.length) (tokenize scope second)
      return tokens.map (Token.cut first.length) ++ more) := by
  have blanked : Lexer.Blanked (blanks.toList ++ second.toList) := by
    cases characters : blanks.toList with
    | nil => exact absurd (String.toList_eq_nil_iff.mp characters) some
    | cons character more =>
        exact ⟨character, more ++ second.toList, rfl, blank character (by simp [characters])⟩
  have later : Lexer.scan scope _ _ = _ :=
    Lexer.scan_shift (first.length + blanks.length) 0 second.toList
  simp only [tokenize, String.toList_append, List.append_assoc,
    Lexer.scan_append 0 first.toList blanked.severs, Lexer.scanBefore, Lexer.scan_blanks _ _ blank,
    String.length_toList, Nat.zero_add] at later ⊢
  rw [later]

/-- Blanks between two sources keep them apart. An error in the first is the error of both, and else
an error in the second is, further behind. Without an error, the tokens say what those of the first
say, and then what those of the second say. In particular the texts of the tokens of a source, with
spaces between them, give its tokens again; the blanks behind them allow for the empty text of the
end. -/
theorem tokenize_separated (scope : Scope) (first second blanks : String) (some : blanks ≠ "")
    (blank : ∀ character ∈ blanks.toList, isBlank character = true) :
    (∀ error, tokenize scope first = .error error →
        tokenize scope (first ++ blanks ++ second) = .error error) ∧
      (∀ tokens error, tokenize scope first = .ok tokens → tokenize scope second = .error error →
        tokenize scope (first ++ blanks ++ second) =
          .error (error.shift (first.length + blanks.length))) ∧
      (∀ tokens more, tokenize scope first = .ok tokens → tokenize scope second = .ok more →
        ∃ joined, tokenize scope (first ++ blanks ++ second) = .ok joined ∧
          joined.map Token.content = tokens.map Token.content ++ more.map Token.content) ∧
      (∀ tokens trailing, tokenize scope first = .ok tokens →
        (∀ character ∈ trailing.toList, isBlank character = true) →
        ∃ again, tokenize scope (" ".intercalate (tokens.map Token.text) ++ trailing) = .ok again ∧
          again.map Token.content = tokens.map Token.content) := by
  rw [tokenize_append scope first second some blank]
  refine ⟨?_, ?_, ?_, ?_⟩
  · intro error failed
    rw [failed]
    rfl
  · intro tokens error read failed
    rw [read, failed]
    rfl
  · intro tokens more read readMore
    rw [read, readMore]
    refine ⟨_, rfl, ?_⟩
    simp [Function.comp_def]
  · intro tokens trailing read blankTrailing
    have each := (Lexer.scan_eq_ok_iff.mp read).gives
    obtain ⟨again, scanned, same⟩ := Lexer.gives_joined each blankTrailing 0
    exact ⟨again, by rw [tokenize, String.toList_append, scanned], same⟩

/-- A character that cannot be read is blamed where it stands behind a number and a tab. -/
theorem tokenize_separated_unexpected :
    tokenize {} ("1" ++ "\t" ++ "$") = .error ⟨.unexpectedCharacter '$', 2, 3⟩ := by
  have scans : (tokenize {} "1").isOk = true := by decide +kernel
  have failed : tokenize {} "$" = .error ⟨.unexpectedCharacter '$', 0, 1⟩ := by
    have classes : Lexer.startsNumber '$' = false ∧ Lexer.startsName '$' = false := by
      decide +kernel
    rw [tokenize, show "$".toList = ['$'] from rfl, Lexer.scan_visible (by decide)]
    simp [Lexer.lexeme, Lexer.symbol?, classes]
  have tab : ∀ character ∈ "\t".toList, isBlank character = true := by
    rw [show "\t".toList = ['\t'] from rfl]
    exact List.forall_mem_singleton.mpr (by decide)
  cases read : tokenize {} "1" with
  | error =>
      rw [read] at scans
      cases scans
  | ok tokens =>
      exact (tokenize_separated {} "1" "$" "\t" (by decide) tab).2.1 tokens _ read failed

end Formulary
