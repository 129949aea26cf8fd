import Formulary.Token.Lexer

/-!
# How a scan goes

`Scanned` tells step by step which tokens are taken from a text: blanks are skipped, and at any
other character a lexeme is taken. A scan succeeds exactly with the tokens of this relation, so that
what holds of the tokens of a source is proved by induction on it.

All that such an induction needs to know of a single lexeme is `Taken`: it has a character at least,
it does not reach beyond the text unless the text is nothing but the sign `<` or `>`, and these two
signs stand at the head of a lexeme only.
-/

namespace Formulary

/-! ## The characters of literals -/

namespace Decimal

open Formulary.Text (isPlainDigit)

/-- Whether a literal may contain a character. -/
def isLiteralCharacter (character : Char) : Bool :=
  isPlainDigit character || ['.', 'e', 'E', '+', '-'].contains character

/-- The digits that a text starts with, cut off by their number. -/
theorem take_length_digits (text : List Char) :
    text.take (text.takeWhile isPlainDigit).length = text.takeWhile isPlainDigit :=
  (List.prefix_iff_eq_take.mp (List.takeWhile_prefix isPlainDigit)).symm

theorem isLiteralCharacter_of_digit {text : List Char} {character : Char}
    (member : character ∈ text.takeWhile isPlainDigit) : isLiteralCharacter character = true := by
  have digit := List.all_eq_true.mp List.all_takeWhile character member
  simp [isLiteralCharacter, digit]

/-- A mantissa consists of characters of literals. -/
theorem isLiteralCharacter_of_mantissa {text : List Char} {character : Char}
    (member : character ∈ text.take (mantissaLength text)) :
    isLiteralCharacter character = true := by
  have whole := take_length_digits text
  simp only [mantissaLength] at member
  split at member
  case h_1 rest dropped =>
      split at member
      case isTrue => simp at member
      case isFalse =>
          rw [Nat.add_assoc, List.take_add, whole, dropped, Nat.add_comm, List.take_succ_cons,
            take_length_digits] at member
          rcases List.mem_append.mp member with inWhole | behind
          · exact isLiteralCharacter_of_digit inWhole
          · rcases List.mem_cons.mp behind with rfl | inFraction
            · decide
            · exact isLiteralCharacter_of_digit inFraction
  case h_2 =>
      rw [whole] at member
      exact isLiteralCharacter_of_digit member

/-- An exponent consists of characters of literals. -/
theorem isLiteralCharacter_of_exponent {text : List Char} {character : Char}
    (member : character ∈ text.take (exponentLength text)) :
    isLiteralCharacter character = true := by
  rcases text with _ | ⟨marker, rest⟩
  · simp at member
  · simp only [exponentLength] at member
    split at member
    case isFalse => simp at member
    case isTrue marks =>
        have marker_ok : isLiteralCharacter marker = true := by
          rcases marks with rfl | rfl <;> decide
        rcases rest with _ | ⟨sign, digits⟩
        · simp at member
        · by_cases signed : sign = '+' ∨ sign = '-'
          · have sign_ok : isLiteralCharacter sign = true := by
              rcases signed with rfl | rfl <;> decide
            simp only [if_pos signed] at member
            split at member
            case h_1 => simp at member
            case h_2 =>
                simp only [List.take_succ_cons, List.mem_cons, take_length_digits] at member
                rcases member with rfl | rfl | inDigits
                · exact marker_ok
                · exact sign_ok
                · exact isLiteralCharacter_of_digit inDigits
          · simp only [if_neg signed] at member
            split at member
            case h_1 => simp at member
            case h_2 =>
                simp only [List.take_succ_cons, List.mem_cons, take_length_digits] at member
                rcases member with rfl | inDigits
                · exact marker_ok
                · exact isLiteralCharacter_of_digit inDigits

/-- A literal consists of characters of literals. -/
theorem isLiteralCharacter_of_literal {text : List Char} {character : Char}
    (member : character ∈ text.take (literalLength text)) :
    isLiteralCharacter character = true := by
  simp only [literalLength] at member
  split at member
  case h_1 => simp at member
  case h_2 =>
      rw [List.take_add] at member
      rcases List.mem_append.mp member with inMantissa | inExponent
      · exact isLiteralCharacter_of_mantissa inMantissa
      · exact isLiteralCharacter_of_exponent inExponent

end Decimal

namespace Lexer

open Formulary.Text (isBlank)

/-! ## A single lexeme -/

/-- A text that is nothing but one of the signs `<` and `>`. -/
def IsLoneSign (text : List Char) : Prop := text = ['<'] ∨ text = ['>']

/-- How much of a text its first lexeme takes. The sign in a window of two characters is taken with
the whole window, so that a sign at the very end takes one character more than there is. -/
structure Taken (text : List Char) (length : Nat) : Prop where
  positive : 0 < length
  within : ¬IsLoneSign text → length ≤ text.length
  beyond : IsLoneSign text → length = 2
  plain : ∀ character ∈ (text.take length).tail, character ≠ '<' ∧ character ≠ '>'

theorem taken_of_symbol {text : List Char} {found : Lexeme} {length : Nat}
    (read : symbol? text = some (found, length)) : Taken text length := by
  unfold symbol? at read
  split at read <;> cases read <;> refine ⟨by simp, ?_, ?_, by simp⟩ <;> simp_all [IsLoneSign]

/-- A text without an operator or a punctuation mark at its head is no lone sign. -/
theorem not_isLoneSign_of_symbol {text : List Char} (none : symbol? text = none) :
    ¬IsLoneSign text := by
  rintro (rfl | rfl) <;> cases none

/-- A number is the literal at the head of the text. -/
theorem literal_of_number {text : List Char} {value : Float} {length : Nat}
    (read : number text = .ok (value, length)) :
    length = Decimal.literalLength text ∧ 0 < length ∧
      value = Decimal.literalValue false (text.take length) := by
  simp only [number] at read
  split at read
  case h_1 => cases read
  case h_2 some =>
      have positive := Nat.pos_of_ne_zero some
      split at read
      case h_1 => cases read; exact ⟨rfl, positive, rfl⟩
      case h_2 =>
          split at read
          case isTrue => cases read
          case isFalse => cases read; exact ⟨rfl, positive, rfl⟩

theorem taken_of_number {text : List Char} (noSign : ¬IsLoneSign text) {value : Float}
    {length : Nat} (read : number text = .ok (value, length)) : Taken text length := by
  obtain ⟨rfl, positive, _⟩ := literal_of_number read
  refine ⟨positive, fun _ => Decimal.literalLength_le text, fun lone => absurd lone noSign, ?_⟩
  intro character member
  have allowed := Decimal.isLiteralCharacter_of_literal (List.mem_of_mem_tail member)
  constructor <;> rintro rfl <;> exact absurd allowed (by decide)

theorem taken_of_name {first : Char} {rest : List Char} (noSign : ¬IsLoneSign (first :: rest)) :
    Taken (first :: rest) ((rest.takeWhile continuesName).length + 1) := by
  have fits : (rest.takeWhile continuesName).length ≤ rest.length :=
    (List.takeWhile_prefix continuesName).length_le
  refine ⟨Nat.succ_pos _, fun _ => by simpa using fits, fun lone => absurd lone noSign, ?_⟩
  intro character member
  rw [List.take_succ_cons, List.tail_cons,
    ← List.prefix_iff_eq_take.mp (List.takeWhile_prefix continuesName)] at member
  have continues := List.all_eq_true.mp List.all_takeWhile character member
  constructor <;> rintro rfl <;> exact absurd continues (by decide +kernel)

/-- What a lexeme takes of the text that it heads. -/
theorem taken_of_lexeme {scope : Scope} {position : Nat} {first : Char} {rest : List Char}
    {found : Lexeme} {length : Nat}
    (read : lexeme scope position first rest = .ok (found, length)) :
    Taken (first :: rest) length := by
  simp only [lexeme] at read
  split at read
  case h_1 symbol =>
      cases read
      exact taken_of_symbol symbol
  case h_2 noSymbol =>
      have noSign := not_isLoneSign_of_symbol noSymbol
      split at read
      case isTrue =>
          split at read
          case h_1 number => cases read; exact taken_of_number noSign number
          case h_2 => cases read
      case isFalse =>
          split at read
          case isTrue =>
              split at read
              case h_1 => cases read; exact taken_of_name noSign
              case h_2 => cases read
          case isFalse => cases read

/-! ## A malformed number -/

/-- A malformed number does not reach beyond the text. -/
theorem gluedLength_le (previous : Char) (text : List Char) :
    gluedLength previous text ≤ text.length := by
  induction text generalizing previous with
  | nil => exact Nat.le_refl 0
  | cons character rest inductionHypothesis =>
      have behind := inductionHypothesis character
      simp only [gluedLength, List.length_cons]
      split
      case isTrue => omega
      case isFalse => split <;> omega

theorem length_of_malformed {text : List Char} {length : Nat} (some : text ≠ [])
    (malformed : number text = .error length) : 0 < length ∧ length ≤ text.length := by
  have positive := List.length_pos_iff.mpr some
  simp only [number] at malformed
  split at malformed
  case h_1 =>
      cases malformed
      exact ⟨Nat.one_pos, positive⟩
  case h_2 literal =>
      split at malformed
      case h_1 => cases malformed
      case h_2 next more behind =>
          split at malformed
          case isTrue =>
              cases malformed
              have reached := gluedLength_le
                ((text.take (Decimal.literalLength text)).getLastD next)
                (text.drop (Decimal.literalLength text))
              rw [List.length_drop] at reached
              have fits := Decimal.literalLength_le text
              have positive := Nat.pos_of_ne_zero literal
              exact ⟨by omega, by omega⟩
          case isFalse => cases malformed

/-! ## A scan -/

/-- The tokens that a scan takes from a text whose first character has the given position. -/
inductive Scanned (scope : Scope) : Nat → List Char → List Token → Prop
  | finish (position : Nat) : Scanned scope position [] []
  | blank {position : Nat} {first : Char} {rest : List Char} {tokens : List Token}
      (skipped : isBlank first = true) (later : Scanned scope (position + 1) rest tokens) :
      Scanned scope position (first :: rest) tokens
  | token {position : Nat} {first : Char} {rest : List Char} {found : Lexeme} {length : Nat}
      {tokens : List Token} (visible : isBlank first = false)
      (read : lexeme scope position first rest = .ok (found, length))
      (later : Scanned scope (position + length) (rest.drop (length - 1)) tokens) :
      Scanned scope position (first :: rest)
        (⟨found, String.ofList ((first :: rest).take length), position, position + length⟩ ::
          tokens)

/-- A scan succeeds with the tokens that it takes. -/
theorem scan_eq_ok_iff {scope : Scope} {position : Nat} {text : List Char} {tokens : List Token} :
    scan scope position text = .ok tokens ↔ Scanned scope position text tokens := by
  constructor
  · intro scanned
    fun_induction scan scope position text generalizing tokens with
    | case1 position =>
        cases scanned
        exact .finish position
    | case2 position first rest skipped inductionHypothesis =>
        exact .blank skipped (inductionHypothesis scanned)
    | case3 => cases scanned
    | case4 => cases scanned
    | case5 position first rest visible found length read token more ran =>
        rename_i inductionHypothesis
        cases scanned
        exact .token (Bool.eq_false_iff.mpr visible) read (inductionHypothesis ran)
  · intro scanned
    induction scanned with
    | finish position => rw [scan]
    | blank skipped _ inductionHypothesis =>
        rw [scan, if_pos skipped, inductionHypothesis]
    | token visible read _ inductionHypothesis =>
        rw [scan, if_neg (Bool.eq_false_iff.mp visible)]
        simp only [read, inductionHypothesis]

end Lexer

end Formulary
