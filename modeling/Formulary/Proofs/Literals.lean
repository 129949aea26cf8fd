import Formulary.Number.Reading
import Formulary.Proofs.NumberTexts
import Formulary.Proofs.Separation

/-!
# Literals

A literal is digits with an optional point and further digits, or a point and digits, and behind
either an optional exponent. The scanner does not decide whether there is one: it takes the longest
literal at the head of a text, which stops before a point or a marker that nothing can be made of,
and then looks at the character behind. The outcome is the same as if it had asked for a literal
that nothing goes on with. Such a literal becomes a token, and where there is none the source does
not scan.

The digits of a literal are those from `0` to `9`. A number may seem to start with a digit of
another script, but then there is no literal.
-/

namespace Formulary

open Formulary.Text (isBlank isPlainDigit)

namespace Decimal

/-! ## The form of a literal -/

/-- A word of digits, and not the empty one. -/
structure IsNumeral (word : List Char) : Prop where
  some : word ≠ []
  digits : AllDigits word

/-- Digits with an optional point and further digits, or a point and digits. -/
inductive IsMantissa : List Char → Prop
  | whole {whole : List Char} (numeral : IsNumeral whole) : IsMantissa whole
  | point {whole fraction : List Char} (numeral : IsNumeral whole) (digits : AllDigits fraction) :
      IsMantissa (whole ++ '.' :: fraction)
  | fraction {fraction : List Char} (numeral : IsNumeral fraction) : IsMantissa ('.' :: fraction)

/-- Nothing, or the letter `e` in either case, an optional sign and digits. -/
inductive IsExponent : List Char → Prop
  | nothing : IsExponent []
  | plain {marker : Char} {word : List Char} (marks : marker = 'e' ∨ marker = 'E')
      (numeral : IsNumeral word) : IsExponent (marker :: word)
  | signed {marker sign : Char} {word : List Char} (marks : marker = 'e' ∨ marker = 'E')
      (signs : sign = '+' ∨ sign = '-') (numeral : IsNumeral word) :
      IsExponent (marker :: sign :: word)

/-- A mantissa with an exponent. -/
def IsLiteral (text : List Char) : Prop :=
  ∃ mantissa exponent, IsMantissa mantissa ∧ IsExponent exponent ∧ text = mantissa ++ exponent

/-! ### What is taken has the form -/

theorem allDigits_takeWhile (text : List Char) : AllDigits (text.takeWhile isPlainDigit) :=
  fun _ member => List.all_eq_true.mp List.all_takeWhile _ member

/-- The digits at the head of a text are a numeral if there is one. -/
theorem isNumeral_takeWhile {text : List Char} (some : (text.takeWhile isPlainDigit).length ≠ 0) :
    IsNumeral (text.takeWhile isPlainDigit) :=
  ⟨fun none => some (by rw [none]; rfl), allDigits_takeWhile text⟩

theorem isMantissa_take {text : List Char} (some : mantissaLength text ≠ 0) :
    IsMantissa (text.take (mantissaLength text)) := by
  have whole := take_length_digits text
  simp only [mantissaLength] at some ⊢
  split at some
  case h_1 rest dropped =>
      split at some
      case isTrue => exact absurd rfl some
      case isFalse digits =>
          rw [if_neg digits, Nat.add_assoc, List.take_add, whole, dropped, Nat.add_comm 1,
            List.take_succ_cons, take_length_digits]
          by_cases bare : (text.takeWhile isPlainDigit).length = 0
          · rw [List.eq_nil_of_length_eq_zero bare]
            exact .fraction (isNumeral_takeWhile fun none => digits ⟨bare, none⟩)
          · exact .point (isNumeral_takeWhile bare) (allDigits_takeWhile rest)
  case h_2 =>
      rw [whole]
      exact .whole (isNumeral_takeWhile some)

theorem isExponent_take (text : List Char) : IsExponent (text.take (exponentLength text)) := by
  match text with
  | [] => exact .nothing
  | [marker] =>
      simp only [exponentLength]
      split <;> exact .nothing
  | marker :: sign :: digits =>
      simp only [exponentLength]
      split
      case isFalse => exact .nothing
      case isTrue marks =>
          split
          case isTrue signs =>
              split
              case h_1 => exact .nothing
              case h_2 some =>
                  rw [List.take_succ_cons, List.take_succ_cons, take_length_digits]
                  exact .signed marks signs (isNumeral_takeWhile some)
          case isFalse =>
              split
              case h_1 => exact .nothing
              case h_2 some =>
                  rw [List.take_succ_cons, take_length_digits]
                  exact .plain marks (isNumeral_takeWhile some)

/-- What is taken from the head of a text is a literal. -/
theorem isLiteral_take {text : List Char} (some : literalLength text ≠ 0) :
    IsLiteral (text.take (literalLength text)) := by
  simp only [literalLength] at some ⊢
  split at some
  case h_1 => exact absurd rfl some
  case h_2 mantissa =>
      exact ⟨_, _, isMantissa_take mantissa, isExponent_take _, List.take_add⟩

/-! ### What has the form is taken -/

/-- A text that digits do not go on with, nor a point. -/
def EndsMantissa (text : List Char) : Prop :=
  ∀ next ∈ text.head?, isPlainDigit next = false ∧ next ≠ '.'

theorem IsExponent.endsMantissa {text : List Char} (isExponent : IsExponent text) :
    EndsMantissa text := by
  cases isExponent with
  | nothing => exact fun _ member => nomatch member
  | plain marks | signed marks =>
      intro next member
      cases Option.some.inj member
      rcases marks with rfl | rfl <;> decide

theorem IsMantissa.mantissaLength_append {mantissa text : List Char}
    (isMantissa : IsMantissa mantissa) (ends : EndsMantissa text) :
    mantissaLength (mantissa ++ text) = mantissa.length := by
  have noDigit : ∀ next ∈ text.head?, isPlainDigit next = false :=
    fun next member => (ends next member).1
  cases isMantissa with
  | whole numeral =>
      simp only [mantissaLength, takeWhile_digits numeral.digits noDigit, List.drop_left]
      split
      case h_1 => exact absurd rfl (ends '.' rfl).2
      case h_2 => rfl
  | @point whole fraction numeral digits =>
      have before : (whole ++ '.' :: (fraction ++ text)).takeWhile isPlainDigit = whole :=
        takeWhile_digits numeral.digits (by simp; decide)
      have positive := List.length_pos_of_ne_nil numeral.some
      rw [List.append_assoc, List.cons_append]
      simp only [mantissaLength, before, List.drop_left, takeWhile_digits digits noDigit,
        List.length_append, List.length_cons]
      rw [if_neg (by omega)]
      omega
  | @fraction fraction numeral =>
      have positive := List.length_pos_of_ne_nil numeral.some
      have before : ('.' :: (fraction ++ text)).takeWhile isPlainDigit = [] := rfl
      rw [List.cons_append]
      simp only [mantissaLength, before, List.length_nil, List.drop_zero,
        takeWhile_digits numeral.digits noDigit, List.length_cons]
      rw [if_neg (by omega)]
      omega

theorem IsExponent.exponentLength_eq {text : List Char} (isExponent : IsExponent text) :
    exponentLength text = text.length := by
  have whole : ∀ {word : List Char}, IsNumeral word → word.takeWhile isPlainDigit = word :=
    fun numeral => List.takeWhile_eq_self_iff.mpr numeral.digits
  cases isExponent with
  | nothing => rfl
  | @plain marker word marks numeral =>
      obtain ⟨first, more, rfl⟩ := List.exists_cons_of_ne_nil numeral.some
      have unsigned : ¬(first = '+' ∨ first = '-') := by
        have digit := numeral.digits first List.mem_cons_self
        rintro (rfl | rfl) <;> exact absurd digit (by decide)
      simp only [exponentLength, if_pos marks, if_neg unsigned, whole numeral]
      rfl
  | @signed marker sign word marks signs numeral =>
      have positive := List.length_pos_of_ne_nil numeral.some
      simp only [exponentLength, if_pos marks, if_pos signs, whole numeral]
      split
      case h_1 none => omega
      case h_2 => rfl

/-- A text has the form of a literal if all of it is taken. -/
theorem isLiteral_iff {text : List Char} :
    IsLiteral text ↔ text ≠ [] ∧ literalLength text = text.length := by
  constructor
  · rintro ⟨mantissa, exponent, isMantissa, isExponent, rfl⟩
    have length := isMantissa.mantissaLength_append isExponent.endsMantissa
    have positive : 0 < mantissa.length := by
      cases isMantissa with
      | whole numeral => exact List.length_pos_of_ne_nil numeral.some
      | point | fraction => simp
    refine ⟨List.append_ne_nil_of_left_ne_nil (List.ne_nil_of_length_pos positive) _, ?_⟩
    rw [literalLength, length]
    split
    case h_1 none => omega
    case h_2 => rw [List.drop_left, isExponent.exponentLength_eq, List.length_append]
  · rintro ⟨some, whole⟩
    have taken := isLiteral_take (show literalLength text ≠ 0 by
      rw [whole]
      exact Nat.ne_of_gt (List.length_pos_of_ne_nil some))
    rwa [whole, List.take_length] at taken

end Decimal

/-! ## The number that a literal stands for -/

namespace Reading

open Decimal (IsLiteral literalLength literalValue isLiteralCharacter)

/-- The characters of literals are within seven bits, and none is a blank or an underscore. -/
theorem plain_of_isLiteralCharacter {character : Char}
    (allowed : isLiteralCharacter character = true) :
    character.toNat < 128 ∧ isPlainBlank character = false ∧ character ≠ '_' := by
  rcases Bool.or_eq_true_iff.mp allowed with digit | mark
  · obtain ⟨low, high⟩ := Bool.and_eq_true_iff.mp digit
    have low : 48 ≤ character.toNat := of_decide_eq_true low
    have high : character.toNat ≤ 57 := of_decide_eq_true high
    refine ⟨by omega, ?_, ?_⟩
    · have noSpace : character ≠ ' ' := by
        rintro rfl
        exact absurd low (by decide)
      have above : ¬character ≤ '\r' := by
        intro below
        have below : character.toNat ≤ 13 := below
        omega
      simp [isPlainBlank, noSpace, above]
    · rintro rfl
      exact absurd high (by decide)
  · have marks : (['.', 'e', 'E', '+', '-'].all fun mark =>
        mark.toNat < 128 && (!isPlainBlank mark && mark != '_')) = true := by decide
    simpa using List.all_eq_true.mp marks character (List.contains_iff_mem.mp mark)

/-- A text without blanks keeps its head. -/
theorem skipBlanks_eq_self {text : List Char}
    (visible : ∀ character ∈ text, isPlainBlank character = false) : skipBlanks text = text := by
  cases text with
  | nil => rfl
  | cons first more => simp [skipBlanks, visible first]

/-- A literal is read as the number that the scanner gives it. -/
theorem float?_literal {word : List Char} (literal : IsLiteral word) :
    float? (String.ofList word) = some (literalValue false word) := by
  obtain ⟨some, whole⟩ := Decimal.isLiteral_iff.mp literal
  have plain : ∀ character ∈ word,
      character.toNat < 128 ∧ isPlainBlank character = false ∧ character ≠ '_' := by
    intro character member
    rw [← List.take_length (l := word), ← whole] at member
    exact plain_of_isLiteralCharacter (Decimal.isLiteralCharacter_of_literal member)
  have sevenBits : plainText word = word :=
    if_pos (List.all_eq_true.mpr fun character member => decide_eq_true (plain _ member).1)
  have stripped : strip word = word := by
    rw [strip, skipBlanks_eq_self fun _ member => (plain _ member).2.1,
      skipBlanks_eq_self fun _ member => (plain _ (List.mem_reverse.mp member)).2.1,
      List.reverse_reverse]
  have joined : withoutUnderscores word = .some word :=
    if_neg fun contains => (plain '_' (List.contains_iff_mem.mp contains)).2.2 rfl
  have read : head? word = .some (literalValue false word, []) := by
    obtain ⟨first, more, rfl⟩ := List.exists_cons_of_ne_nil some
    have starts := Decimal.starts_of_literalLength (by rw [whole]; exact Nat.succ_ne_zero _)
    have magnitude : magnitude? false (first :: more) =
        .some (literalValue false (first :: more), []) := by
      simp only [magnitude?, whole, List.length_cons]
      rw [← List.length_cons, List.take_length, List.drop_length]
    rw [← magnitude, head?.eq_3]
    · rintro rest heads
      cases heads
      exact absurd starts (by decide)
    · rintro rest heads
      cases heads
      exact absurd starts (by decide)
  simp only [float?, String.toList_ofList, sevenBits, stripped, joined, read, Option.bind_eq_bind,
    Option.bind_some]

end Reading

namespace Lexer

open Decimal (IsLiteral literalLength literalValue)

/-- A number is read from the head of a text exactly if there is a literal there that nothing goes
on with. -/
theorem number_eq_ok_iff {text : List Char} {value : Float} {length : Nat} :
    number text = .ok (value, length) ↔
      ∃ word behind, text = word ++ behind ∧ IsLiteral word ∧ Breaks behind ∧
        length = word.length ∧ value = literalValue false word := by
  constructor
  · intro read
    obtain ⟨rfl, positive, rfl⟩ := literal_of_number read
    refine ⟨_, _, (List.take_append_drop (literalLength text) text).symm,
      Decimal.isLiteral_take (Nat.ne_of_gt positive), ?_, ?_, rfl⟩
    · simp only [number] at read
      split at read
      case h_1 => cases read
      case h_2 =>
          split at read
          case h_1 nothing =>
            rw [nothing]; trivial
          case h_2 next more behind =>
              split at read
              case isTrue => cases read
              case isFalse breaks =>
                  rw [behind]
                  simpa [Breaks] using breaks
    · rw [List.length_take, Nat.min_eq_left (Decimal.literalLength_le text)]
  · rintro ⟨word, behind, rfl, literal, breaks, rfl, rfl⟩
    obtain ⟨some, whole⟩ := Decimal.isLiteral_iff.mp literal
    have positive := List.length_pos_of_ne_nil some
    have taken := Decimal.literalLength_append_of_whole whole breaks
    unfold number
    rw [taken]
    split
    case h_1 none => omega
    case h_2 =>
        rw [List.take_left, List.drop_left]
        cases behind with
        | nil => rfl
        | cons next more => simp [breaks.1, breaks.2]

/-! ## Where the scanner stands -/

/-- Nothing that a number can start with is blank. -/
theorem isBlank_of_startsNumber {first : Char} (starts : startsNumber first = true) :
    isBlank first = false := by
  rcases Bool.or_eq_true_iff.mp starts with digit | point
  · exact Text.Ranges.contains_eq_false (by decide +kernel) digit
  · rw [eq_of_beq point]
    decide

/-- The token of a lexeme with a length, which stands at a position before a text. -/
def tokenAt (found : Lexeme) (text : List Char) (position length : Nat) : Token :=
  ⟨found, String.ofList (text.take length), position, position + length⟩

/-- The scanner has taken some tokens from a source and stands at a position. -/
inductive Reaches (scope : Scope) (source : List Char) : List Token → Nat → Prop
  | start : Reaches scope source [] 0
  | blank {taken : List Token} {position : Nat} {first : Char} {rest : List Char}
      (reached : Reaches scope source taken position)
      (stands : source.drop position = first :: rest) (skipped : isBlank first = true) :
      Reaches scope source taken (position + 1)
  | token {taken : List Token} {position : Nat} {first : Char} {rest : List Char}
      {found : Lexeme} {length : Nat} (reached : Reaches scope source taken position)
      (stands : source.drop position = first :: rest) (visible : isBlank first = false)
      (read : lexeme scope position first rest = .ok (found, length)) :
      Reaches scope source (taken ++ [tokenAt found (first :: rest) position length])
        (position + length)

variable {scope : Scope} {source : List Char}

theorem drop_add_of_drop {position : Nat} {first : Char} {rest : List Char}
    (stands : source.drop position = first :: rest) {length : Nat} (positive : 0 < length) :
    source.drop (position + length) = rest.drop (length - 1) := by
  obtain ⟨before, rfl⟩ := Nat.exists_eq_add_of_lt positive
  rw [← List.drop_drop, stands]
  simp

/-- What the scanner makes of a source is what it has taken and what it makes of the rest. -/
theorem Reaches.scan_eq {taken : List Token} {position : Nat}
    (reached : Reaches scope source taken position) :
    scan scope 0 source = (scan scope position (source.drop position)).map (taken ++ ·) := by
  induction reached with
  | start =>
      rw [List.drop_zero]
      cases scan scope 0 source <;> rfl
  | blank _ stands skipped inductionHypothesis =>
      rw [inductionHypothesis, stands, scan_blank skipped, drop_add_of_drop stands Nat.one_pos]
      rfl
  | token _ stands visible read inductionHypothesis =>
      rw [inductionHypothesis, stands, scan_visible (Bool.eq_false_iff.mp visible), read,
        drop_add_of_drop stands (taken_of_lexeme read).positive]
      simp only [Outcome.ok_bind]
      cases scan scope _ (List.drop _ _) with
      | error error => rfl
      | ok tokens => simp [Except.map, tokenAt]

/-- The scanner stood wherever a token of the source was taken. -/
theorem exists_reaches_of_mem {position : Nat} {text : List Char} {tokens : List Token}
    (scanned : Scanned scope position text tokens) {taken : List Token}
    (reached : Reaches scope source taken position) (stands : source.drop position = text)
    {token : Token} (member : token ∈ tokens) :
    ∃ before place first rest found length, Reaches scope source before place ∧
      source.drop place = first :: rest ∧
      lexeme scope place first rest = .ok (found, length) ∧
      token = tokenAt found (first :: rest) place length := by
  induction scanned generalizing taken with
  | finish => cases member
  | blank skipped later inductionHypothesis =>
      exact inductionHypothesis (reached.blank stands skipped)
        (drop_add_of_drop stands Nat.one_pos) member
  | token visible read later inductionHypothesis =>
      rcases List.mem_cons.mp member with rfl | behind
      · exact ⟨taken, _, _, _, _, _, reached, stands, read, rfl⟩
      · exact inductionHypothesis (reached.token stands visible read)
          (drop_add_of_drop stands (taken_of_lexeme read).positive) behind

/-! ## The lexeme of a number -/

/-- Where a number can start, a number is read or there is none. -/
theorem lexeme_of_startsNumber {first : Char} (starts : startsNumber first = true)
    (position : Nat) (rest : List Char) :
    lexeme scope position first rest =
      match number (first :: rest) with
      | .ok (value, length) => .ok (.number { value := .real value }, length)
      | .error length =>
        .error ⟨.malformedNumber ((first :: rest).take length), position, position + length⟩ := by
  have noSign := symbol?_of_startsNumber starts rest
  cases read : number (first :: rest) with
  | ok found => simp only [lexeme, noSign, starts, if_true, read]
  | error length => simp only [lexeme, noSign, starts, if_true, read]

/-- The only name of a number is that of the imaginary unit. -/
theorem eq_of_resolve {name : String} {found : Lexeme} (resolved : scope.resolve name = some found)
    (isNumber : found.kind = .number) : name = "I" := by
  unfold Scope.resolve at resolved
  by_cases unit : name = "I"
  · exact unit
  · rw [if_neg unit] at resolved
    split at resolved
    · cases resolved; cases isNumber
    split at resolved
    · cases resolved; cases isNumber
    split at resolved
    · cases resolved; cases isNumber
    split at resolved
    · cases resolved; cases isNumber
    split at resolved
    · cases resolved; cases isNumber
    split at resolved
    · cases resolved; cases isNumber
    · obtain ⟨function, _, rfl⟩ := Option.map_eq_some_iff.mp resolved
      cases isNumber

/-- A number is read where one can start, or it is the imaginary unit. -/
theorem number_of_lexeme {position : Nat} {first : Char} {rest : List Char} {found : Lexeme}
    {length : Nat} (read : lexeme scope position first rest = .ok (found, length))
    (isNumber : found.kind = .number) :
    String.ofList ((first :: rest).take length) = "I" ∨
      ∃ value, number (first :: rest) = .ok (value, length) ∧
        found = .number { value := .real value } := by
  by_cases starts : startsNumber first = true
  · rw [lexeme_of_startsNumber starts] at read
    split at read
    case h_1 value _ numbered =>
        cases read
        exact .inr ⟨value, numbered, rfl⟩
    case h_2 => cases read
  · simp only [lexeme, if_neg starts] at read
    split at read
    case h_1 symbol =>
        cases read
        unfold symbol? at symbol
        split at symbol <;> cases symbol <;> cases isNumber
    case h_2 =>
        split at read
        case isFalse => cases read
        case isTrue =>
            split at read
            case h_2 => cases read
            case h_1 resolved =>
                cases read
                exact .inl (eq_of_resolve resolved isNumber)

/-! ## Exactness -/

/-- Whether there is a literal at the head of a text that nothing goes on with. -/
def StartsLiteral (text : List Char) : Prop :=
  ∃ word behind, text = word ++ behind ∧ IsLiteral word ∧ Breaks behind

/-- The token of a number is a literal in its source: its text has the form of one, stands where the
token says, is followed by nothing that goes on with it, and is read as the number of the token. -/
structure IsLiteralIn (source : List Char) (token : Token) : Prop where
  form : IsLiteral token.text.toList
  place : ∃ behind, source.drop token.start = token.text.toList ++ behind ∧
    token.stop = token.start + token.text.toList.length ∧ Breaks behind
  value : ∃ value, token.lexeme = .number { value := .real value } ∧
    Reading.float? token.text = some value

/-- The token of a literal that stands at a position. -/
def literalToken (word : List Char) (position : Nat) : Token :=
  ⟨.number { value := .real (literalValue false word) }, String.ofList word, position,
    position + word.length⟩

/-- A number token that is not the imaginary unit is a literal. -/
theorem isLiteralIn_of_read {position : Nat} {first : Char} {rest : List Char} {found : Lexeme}
    {length : Nat} (stands : source.drop position = first :: rest)
    (read : lexeme scope position first rest = .ok (found, length))
    (isNumber : found.kind = .number)
    (noUnit : (tokenAt found (first :: rest) position length).text ≠ "I") :
    IsLiteralIn source (tokenAt found (first :: rest) position length) := by
  rcases number_of_lexeme read isNumber with unit | ⟨value, numbered, rfl⟩
  · exact absurd unit noUnit
  · obtain ⟨word, behind, cut, literal, breaks, rfl, rfl⟩ := number_eq_ok_iff.mp numbered
    have text : (first :: rest).take word.length = word := by rw [cut, List.take_left]
    refine ⟨?_, ⟨behind, ?_, ?_, breaks⟩, _, rfl, ?_⟩
    · simpa only [tokenAt, text, String.toList_ofList] using literal
    · simp only [tokenAt, text, String.toList_ofList]
      exact stands.trans cut
    · simp only [tokenAt, text, String.toList_ofList]
    · simpa only [tokenAt, text] using Reading.float?_literal literal

section Standing

variable {taken : List Token} {position : Nat} {first : Char} {rest : List Char}
  (reached : Reaches scope source taken position) (stands : source.drop position = first :: rest)
  (starts : startsNumber first = true)

include reached stands starts

/-- A literal that nothing goes on with is taken as one token. -/
theorem reaches_of_literal {word behind : List Char} (cut : first :: rest = word ++ behind)
    (literal : IsLiteral word) (breaks : Breaks behind) :
    Reaches scope source (taken ++ [literalToken word position]) (position + word.length) := by
  have numbered : number (first :: rest) = .ok (literalValue false word, word.length) :=
    number_eq_ok_iff.mpr ⟨word, behind, cut, literal, breaks, rfl, rfl⟩
  have read : lexeme scope position first rest =
      .ok (.number { value := .real (literalValue false word) }, word.length) := by
    rw [lexeme_of_startsNumber starts, numbered]
  have next := reached.token stands (isBlank_of_startsNumber starts) read
  rwa [tokenAt, cut, List.take_left] at next

/-- Where there is no literal that nothing goes on with, the scan stops and blames what is there, as
far as the malformed number reaches. -/
theorem scan_of_no_literal (none : ¬StartsLiteral (first :: rest)) :
    ∃ stop, position < stop ∧ stop ≤ source.length ∧
      scan scope 0 source = .error
        ⟨.malformedNumber ((source.drop position).take (stop - position)), position, stop⟩ := by
  cases numbered : number (first :: rest) with
  | ok found =>
      obtain ⟨word, behind, cut, literal, breaks, _⟩ := number_eq_ok_iff.mp numbered
      exact absurd ⟨word, behind, cut, literal, breaks⟩ none
  | error length =>
      obtain ⟨positive, fits⟩ := length_of_malformed (List.cons_ne_nil first rest) numbered
      have left := congrArg List.length stands
      rw [List.length_drop] at left
      refine ⟨position + length, by omega, by omega, ?_⟩
      rw [reached.scan_eq, stands,
        scan_visible (Bool.eq_false_iff.mp (isBlank_of_startsNumber starts)),
        lexeme_of_startsNumber starts, numbered, Nat.add_sub_cancel_left]
      rfl

end Standing

end Lexer

/-- Numbers are scanned exactly. Every number token of a source is a literal, unless it is the
imaginary unit. Conversely, wherever the scanner stands before a character that a number can start
with: a literal there that nothing goes on with becomes a token, all of it and only it, and the
scanner then stands behind it; and if there is none, the source does not scan, and the error has the
span and the text of what is there. -/
theorem tokenize_literals (scope : Scope) (source : String) :
    (∀ tokens, tokenize scope source = .ok tokens →
      ∀ token ∈ tokens, token.kind = .number → token.text ≠ "I" →
        Lexer.IsLiteralIn source.toList token) ∧
    ∀ taken position first rest, Lexer.Reaches scope source.toList taken position →
      source.toList.drop position = first :: rest → Lexer.startsNumber first = true →
        (∀ word behind, first :: rest = word ++ behind → Decimal.IsLiteral word →
          Lexer.Breaks behind →
            Reading.float? (String.ofList word) = some (Decimal.literalValue false word) ∧
            Lexer.Reaches scope source.toList (taken ++ [Lexer.literalToken word position])
              (position + word.length) ∧
            ∀ tokens, tokenize scope source = .ok tokens →
              ∃ later, tokens = taken ++ Lexer.literalToken word position :: later) ∧
        (¬Lexer.StartsLiteral (first :: rest) →
          ∃ error, tokenize scope source = .error error ∧ error.start = position ∧
            position < error.stop ∧ error.stop ≤ source.toList.length ∧
            error.cause.found =
              String.ofList ((source.toList.drop position).take (error.stop - position))) := by
  refine ⟨?_, ?_⟩
  · intro tokens scanned token member isNumber noUnit
    obtain ⟨before, place, first, rest, found, length, _, stands, read, rfl⟩ :=
      Lexer.exists_reaches_of_mem (Lexer.scan_eq_ok_iff.mp scanned) .start List.drop_zero member
    exact Lexer.isLiteralIn_of_read stands read isNumber noUnit
  · intro taken position first rest reached stands starts
    refine ⟨?_, ?_⟩
    · intro word behind cut literal breaks
      have next := Lexer.reaches_of_literal reached stands starts cut literal breaks
      refine ⟨Reading.float?_literal literal, next, ?_⟩
      intro tokens scanned
      rw [tokenize, next.scan_eq] at scanned
      obtain ⟨later, _, rfl⟩ := Outcome.map_eq_ok_iff.mp scanned
      exact ⟨later, List.append_assoc _ _ _⟩
    · intro none
      obtain ⟨stop, behind, within, failed⟩ :=
        Lexer.scan_of_no_literal reached stands starts none
      exact ⟨_, failed, rfl, behind, within, rfl⟩

/-- A point and a digit are a literal before a blank. Behind the sum sign the exponent has a marker
and a sign but no digits, so there is no literal that nothing goes on with, though there is a
shorter one. -/
theorem tokenize_literals_dangling :
    Lexer.Reaches {} ".5 + 1e+".toList
        [Lexer.literalToken ['.', '5'] 0, ⟨.plus, "+", 3, 4⟩] 5 ∧
      ∃ error, tokenize {} ".5 + 1e+" = .error error ∧ error.start = 5 ∧ 5 < error.stop ∧
        error.stop ≤ 8 ∧
        error.cause.found = String.ofList (['1', 'e', '+'].take (error.stop - 5)) := by
  have characters : ".5 + 1e+".toList = ['.', '5', ' ', '+', ' ', '1', 'e', '+'] := rfl
  have literal : Decimal.IsLiteral ['.', '5'] :=
    Decimal.isLiteral_iff.mpr ⟨List.cons_ne_nil _ _, by decide⟩
  obtain ⟨_, exact⟩ := tokenize_literals {} ".5 + 1e+"
  rw [characters] at exact ⊢
  obtain ⟨_, first, _⟩ := (exact [] 0 _ _ .start rfl (by decide)).1 ['.', '5'] _ rfl literal
    ⟨by decide +kernel, by decide⟩
  have sign := (first.blank rfl (by decide)).token rfl (by decide)
    (show Lexer.lexeme {} 3 '+' [' ', '1', 'e', '+'] = .ok (.plus, 1) from rfl)
  have reached := sign.blank rfl (by decide)
  have dangling : ¬Lexer.StartsLiteral ['1', 'e', '+'] := by
    rintro ⟨word, behind, cut, literal, breaks⟩
    have malformed : Lexer.number ['1', 'e', '+'] = .error 3 := by decide +kernel
    rw [Lexer.number_eq_ok_iff.mpr ⟨word, behind, cut, literal, breaks, rfl, rfl⟩] at malformed
    cases malformed
  exact ⟨reached, (exact _ 5 _ _ reached rfl (by decide)).2 dangling⟩

end Formulary
