import Formulary.Proofs.Scanning
import Mathlib.Algebra.Group.Nat.Defs
import Mathlib.Data.List.TakeWhile

/-!
# How lexemes are spelled

A text spells some lexemes if a scan takes just these from it, wherever the text stands and whatever
follows it. What may follow is part of the notion: a word ends before a blank, a comma or a
parenthesis, and a sign that may be the head of a longer one needs a blank behind it. Texts are then
put together, as long as each fits before the next.
-/

namespace Formulary

/-! ## Classes of characters that are apart -/

namespace Text

/-- The code points of a set as the bits of a number. -/
def Ranges.mask : Ranges → Nat
  | [] => 0
  | (first, last) :: rest => (2 ^ (last + 1 - first) - 1) <<< first ||| mask rest

theorem Ranges.testBit_mask {ranges : Ranges} {code : Nat} (inside : ranges.contains code = true) :
    ranges.mask.testBit code = true := by
  obtain ⟨interval, member, low, high⟩ := contains_iff.mp inside
  clear inside
  induction ranges with
  | nil => cases member
  | cons head rest inductionHypothesis =>
      rw [mask, Nat.testBit_or, Nat.testBit_shiftLeft, Nat.testBit_two_pow_sub_one]
      rcases List.mem_cons.mp member with rfl | behind
      · have bit : code - interval.1 < interval.2 + 1 - interval.1 := by omega
        simp [low, bit]
      · rw [inductionHypothesis behind, Bool.or_true]

/-- Whether no code point is in both of two sets. -/
def Ranges.apart (first second : Ranges) : Bool := first.mask &&& second.mask == 0

theorem Ranges.contains_eq_false {first second : Ranges} (apart : first.apart second = true)
    {code : Nat} (inside : first.contains code = true) : second.contains code = false := by
  refine Bool.eq_false_iff.mpr fun inBoth => ?_
  have both : (first.mask &&& second.mask).testBit code = true := by
    rw [Nat.testBit_and, testBit_mask inside, testBit_mask inBoth, Bool.and_true]
  rw [eq_of_beq apart, Nat.zero_testBit] at both
  cases both

theorem isDigit_of_isLetter {character : Char} (letter : isLetter character = true) :
    isDigit character = false :=
  Ranges.contains_eq_false (by decide +kernel) letter

theorem isBlank_of_isAlphanumeric {character : Char} (named : isAlphanumeric character = true) :
    isBlank character = false := by
  rw [isAlphanumeric, isLetter, ← Ranges.contains_append] at named
  exact Ranges.contains_eq_false (by decide +kernel) named

end Text

namespace Lexer

open Formulary.Text (isBlank isPlainDigit)

/-! ## What follows a word -/

/-- The characters that operators and punctuation marks start with. -/
def signCharacters : List Char := ['>', '<', '=', '+', '-', '*', '/', '(', ')', ',']

/-- No name goes on with a space, a point or the head of a sign. -/
theorem continuesName_of_mark {character : Char} (mark : character ∈ ' ' :: '.' :: signCharacters) :
    continuesName character = false := by
  have apart : ((' ' :: '.' :: signCharacters).all fun mark => !continuesName mark) = true := by
    decide +kernel
  simpa using List.all_eq_true.mp apart character mark

theorem continuesName_of_startsName {character : Char} (starts : startsName character = true) :
    continuesName character = true := by
  rcases Bool.or_eq_true_iff.mp starts with underscore | letter
  · simp [continuesName, underscore]
  · simp [continuesName, Text.isAlphanumeric, letter]

/-- The characters that a word ends before. -/
def closers : List Char := [' ', ',', '(', ')']

/-- Whether a word ends before a text. -/
def Ends : List Char → Prop
  | [] => True
  | next :: _ => next ∈ closers

/-- Whether neither a name nor the digits of a number go on with a text. -/
def Breaks : List Char → Prop
  | [] => True
  | next :: _ => continuesName next = false ∧ next ≠ '.'

/-- Whether neither a name nor a number goes on with a text, even if the number stops before the
sign of an exponent. -/
def Halts : List Char → Prop
  | [] => True
  | next :: _ => continuesName next = false ∧ next ∉ ['.', '+', '-']

/-- A name goes on with the digits of literals. -/
theorem continuesName_of_isPlainDigit {character : Char} (digit : isPlainDigit character = true) :
    continuesName character = true := by
  obtain ⟨low, high⟩ := Bool.and_eq_true_iff.mp digit
  have numeral : Text.numeralRanges.contains character.toNat = true :=
    Text.Ranges.contains_iff.mpr ⟨(0x30, 0x39), .head _, of_decide_eq_true low,
      of_decide_eq_true high⟩
  simp [continuesName, Text.isAlphanumeric, numeral]

namespace Breaks

variable {next : Char} {more : List Char}

theorem noDigit (breaks : Breaks (next :: more)) : isPlainDigit next = false :=
  Bool.eq_false_iff.mpr fun digit =>
    Bool.eq_false_iff.mp breaks.1 (continuesName_of_isPlainDigit digit)

theorem noMarker (breaks : Breaks (next :: more)) : ¬(next = 'e' ∨ next = 'E') := by
  rintro (rfl | rfl) <;> exact absurd breaks.1 (by decide)

end Breaks

theorem Halts.noSign {next : Char} {more : List Char} (halts : Halts (next :: more)) :
    ¬(next = '+' ∨ next = '-') := by
  rintro (rfl | rfl) <;> exact halts.2 (by decide)

theorem Halts.breaks {text : List Char} (halts : Halts text) : Breaks text := by
  cases text with
  | nil => trivial
  | cons next more => exact ⟨halts.1, fun point => halts.2 (point ▸ .head _)⟩

theorem Ends.halts {text : List Char} (ends : Ends text) : Halts text := by
  cases text with
  | nil => trivial
  | cons next more =>
      have marks : closers ⊆ ' ' :: '.' :: signCharacters := by simp [closers, signCharacters]
      have others : ∀ closer ∈ closers, closer ∉ ['.', '+', '-'] := by simp [closers]
      exact ⟨continuesName_of_mark (marks ends), others next ends⟩

/-- Whether a text starts with a space. -/
def Spaced (text : List Char) : Prop := ∃ more, text = ' ' :: more

theorem Spaced.ends {text : List Char} (spaced : Spaced text) : Ends text := by
  obtain ⟨more, rfl⟩ := spaced
  exact .head _

/-- A property that the next character does not have does not go on. -/
theorem takeWhile_append_of_stops {test : Char → Bool} (text : List Char) {rest : List Char}
    (stops : ∀ next ∈ rest.head?, test next = false) :
    (text ++ rest).takeWhile test = text.takeWhile test := by
  induction text with
  | nil =>
      cases rest with
      | nil => rfl
      | cons next more => simp [stops next rfl]
  | cons first more inductionHypothesis =>
      rw [List.cons_append, List.takeWhile_cons, List.takeWhile_cons, inductionHypothesis]

/-- A name does not go on with a text that breaks it off. -/
theorem takeWhile_append_of_breaks (text : List Char) {rest : List Char} (breaks : Breaks rest) :
    (text ++ rest).takeWhile continuesName = text.takeWhile continuesName := by
  refine takeWhile_append_of_stops text fun next head => ?_
  obtain ⟨more, rfl⟩ := List.head?_eq_some_iff.mp head
  exact breaks.1

end Lexer

namespace Decimal

open Lexer (Breaks Halts takeWhile_append_of_stops)
open Formulary.Text (isPlainDigit)

variable {text rest : List Char}

theorem digits_append (text : List Char) (breaks : Breaks rest) :
    (text ++ rest).takeWhile isPlainDigit = text.takeWhile isPlainDigit := by
  refine takeWhile_append_of_stops text fun next head => ?_
  obtain ⟨more, rfl⟩ := List.head?_eq_some_iff.mp head
  exact breaks.noDigit

theorem mantissaLength_append (text : List Char) (breaks : Breaks rest) :
    mantissaLength (text ++ rest) = mantissaLength text := by
  have fits : (text.takeWhile isPlainDigit).length ≤ text.length :=
    (List.takeWhile_prefix _).length_le
  simp only [mantissaLength, digits_append text breaks, List.drop_append_of_le_length fits]
  cases dropped : text.drop (text.takeWhile isPlainDigit).length with
  | nil =>
      cases rest with
      | nil => rfl
      | cons next more => simp [breaks.2]
  | cons first behind =>
      by_cases point : first = '.'
      · subst point
        simp only [List.cons_append, digits_append behind breaks]
      · simp [point]

/-- An exponent does not reach into a text that breaks it off, unless this gives it a sign. -/
theorem exponentLength_append (text : List Char) (breaks : Breaks rest)
    (noSign : ∀ marker, text = [marker] → Halts rest) :
    exponentLength (text ++ rest) = exponentLength text := by
  match text with
  | [] =>
      cases rest with
      | nil => rfl
      | cons next more => simp [exponentLength, breaks.noMarker]
  | [marker] =>
      cases rest with
      | nil => rfl
      | cons next more =>
          have noDigits := digits_append [] breaks
          simp only [List.nil_append, List.takeWhile_nil] at noDigits
          simp [exponentLength, (noSign marker rfl).noSign, noDigits]
  | marker :: sign :: digits =>
      have plain := digits_append (sign :: digits) breaks
      rw [List.cons_append] at plain
      simp only [List.cons_append, exponentLength, digits_append digits breaks, plain]

/-- A literal does not reach into a text that halts it. -/
theorem literalLength_append (text : List Char) (halts : Halts rest) :
    literalLength (text ++ rest) = literalLength text := by
  have behind : (text ++ rest).drop (mantissaLength text) =
      text.drop (mantissaLength text) ++ rest :=
    List.drop_append_of_le_length (mantissaLength_le text)
  unfold literalLength
  rw [mantissaLength_append text halts.breaks]
  split
  case h_1 => rfl
  case h_2 => rw [behind, exponentLength_append _ halts.breaks fun _ _ => halts]

/-- A complete literal is not longer before a text that breaks it off. -/
theorem literalLength_append_of_whole (whole : literalLength text = text.length)
    (breaks : Breaks rest) : literalLength (text ++ rest) = text.length := by
  have behind : (text ++ rest).drop (mantissaLength text) =
      text.drop (mantissaLength text) ++ rest :=
    List.drop_append_of_le_length (mantissaLength_le text)
  unfold literalLength at whole ⊢
  rw [mantissaLength_append text breaks]
  split at whole
  case h_1 => exact whole
  case h_2 =>
      -- A marker without digits is no part of a literal, so it is not what is left of this one.
      have noMarker : ∀ marker, text.drop (mantissaLength text) ≠ [marker] := by
        intro marker lone
        have short : (text.drop (mantissaLength text)).length = 1 := by rw [lone]; rfl
        have nothing : exponentLength [marker] = 0 := by simp [exponentLength]
        rw [lone, nothing] at whole
        rw [List.length_drop] at short
        omega
      rw [behind, exponentLength_append _ breaks fun marker lone => absurd lone (noMarker marker)]
      exact whole

/-- A literal starts with a digit or a point. -/
theorem starts_of_literalLength {first : Char} {more : List Char}
    (literal : literalLength (first :: more) ≠ 0) : isPlainDigit first = true ∨ first = '.' := by
  by_cases digit : isPlainDigit first = true
  · exact .inl digit
  · refine .inr (Classical.byContradiction fun noPoint => literal ?_)
    have noMantissa : mantissaLength (first :: more) = 0 := by
      simp [mantissaLength, digit, noPoint]
    simp [literalLength, noMantissa]

end Decimal

namespace Lexer

open Formulary.Text (isBlank isPlainDigit)

/-! ## Texts that spell lexemes -/

/-- Whether a scan takes some lexemes from a text, wherever it stands, if what follows the text is
of a kind. -/
def Spells (scope : Scope) (follows : List Char → Prop) (text : List Char)
    (lexemes : List Lexeme) : Prop :=
  ∀ (position : Nat) (rest : List Char) (later : List Token), follows rest →
    Scanned scope (position + text.length) rest later →
      ∃ tokens, tokens.map Token.lexeme = lexemes ∧
        Scanned scope position (text ++ rest) (tokens ++ later)

variable {scope : Scope} {follows further : List Char → Prop} {text more : List Char}
  {lexemes others : List Lexeme}

theorem Spells.weaken (spells : Spells scope follows text lexemes)
    (implies : ∀ rest, further rest → follows rest) : Spells scope further text lexemes :=
  fun position rest later behind => spells position rest later (implies rest behind)

/-- One text spells its lexemes before another one. -/
theorem Spells.append (spells : Spells scope follows text lexemes)
    (spellsMore : Spells scope further more others)
    (fits : ∀ rest, further rest → follows (more ++ rest)) :
    Spells scope further (text ++ more) (lexemes ++ others) := by
  intro position rest later behind scanned
  rw [List.length_append, ← Nat.add_assoc] at scanned
  obtain ⟨second, rfl, scannedMore⟩ := spellsMore _ rest later behind scanned
  obtain ⟨first, rfl, scannedAll⟩ := spells _ _ _ (fits rest behind) scannedMore
  exact ⟨first ++ second, List.map_append, by simpa using scannedAll⟩

/-- A text that may stand before any other stands before this one. -/
theorem Spells.before (spells : Spells scope (fun _ => True) text lexemes)
    (spellsMore : Spells scope further more others) :
    Spells scope further (text ++ more) (lexemes ++ others) :=
  spells.append spellsMore fun _ _ => trivial

theorem spells_space : Spells scope (fun _ => True) [' '] [] :=
  fun _ _ _ _ scanned => ⟨[], rfl, .blank (by decide) scanned⟩

/-- A text that is read as one lexeme spells it. -/
theorem spells_of_lexeme {first : Char} {found : Lexeme} (visible : isBlank first = false)
    (read : ∀ position rest, follows rest →
      lexeme scope position first (text ++ rest) = .ok (found, text.length + 1)) :
    Spells scope follows (first :: text) [found] := by
  intro position rest later behind scanned
  have dropped : (text ++ rest).drop (text.length + 1 - 1) = rest := by simp
  exact ⟨[_], rfl, .token visible (read position rest behind) (dropped.symm ▸ scanned)⟩

/-- An operator or punctuation mark spells its lexeme. -/
theorem spells_symbol {first : Char} {found : Lexeme} (visible : isBlank first = false)
    (read : ∀ rest, follows rest →
      symbol? (first :: (text ++ rest)) = some (found, text.length + 1)) :
    Spells scope follows (first :: text) [found] := by
  refine spells_of_lexeme visible fun position rest behind => ?_
  simp only [lexeme, read rest behind]

theorem spells_leftParen : Spells scope (fun _ => True) ['('] [.leftParen] :=
  spells_symbol (by decide) fun _ _ => rfl

theorem spells_rightParen : Spells scope (fun _ => True) [')'] [.rightParen] :=
  spells_symbol (by decide) fun _ _ => rfl

theorem spells_comma : Spells scope (fun _ => True) [','] [.comma] :=
  spells_symbol (by decide) fun _ _ => rfl

theorem spells_minus : Spells scope (fun _ => True) ['-'] [.minus] :=
  spells_symbol (by decide) fun _ _ => rfl

/-- The sign of an operation that stands before a space spells its lexeme. -/
theorem spells_comparison (operator : Comparison) :
    Spells scope Spaced operator.opcode.text.toList [.comparison operator] := by
  cases operator <;> refine spells_symbol (by decide) ?_ <;> rintro _ ⟨more, rfl⟩ <;> rfl

/-! ### Words -/

/-- Whether a text starts as a name does and goes on so. -/
def IsWord (name : String) : Prop :=
  ∃ first more, name.toList = first :: more ∧ startsName first = true ∧
    more.all continuesName = true

theorem symbol?_eq_none {first : Char} (other : first ∉ signCharacters) (rest : List Char) :
    symbol? (first :: rest) = none := by
  simp only [signCharacters, List.mem_cons, List.not_mem_nil, or_false, not_or] at other
  simp [symbol?, other]

theorem symbol?_of_startsNumber {first : Char} (starts : startsNumber first = true) :
    ∀ rest, symbol? (first :: rest) = none :=
  symbol?_eq_none fun sign =>
    List.any_eq_false.mp (show signCharacters.any startsNumber = false by decide) first sign starts

theorem symbol?_of_startsName {first : Char} (starts : startsName first = true) :
    ∀ rest, symbol? (first :: rest) = none :=
  symbol?_eq_none fun sign =>
    Bool.eq_false_iff.mp (continuesName_of_mark (.tail _ (.tail _ sign)))
      (continuesName_of_startsName starts)

theorem spells_word {name : String} (word : IsWord name) {found : Lexeme}
    (resolved : scope.resolve name = some found) :
    Spells scope Ends name.toList [found] := by
  obtain ⟨first, more, characters, starts, continues⟩ := word
  have apart : isBlank first = false ∧ startsNumber first = false := by
    rcases Bool.or_eq_true_iff.mp starts with underscore | letter
    · rw [eq_of_beq underscore]
      decide
    · have noPoint : first ≠ '.' := by
        rintro rfl
        exact Bool.eq_false_iff.mp (continuesName_of_mark (.tail _ (.head _)))
          (continuesName_of_startsName starts)
      exact ⟨Text.isBlank_of_isAlphanumeric (Bool.or_eq_true_iff.mpr (.inl letter)),
        Bool.or_eq_false_iff.mpr ⟨Text.isDigit_of_isLetter letter, beq_false_of_ne noPoint⟩⟩
  rw [characters]
  have noSign := symbol?_of_startsName starts
  refine spells_of_lexeme apart.1 fun position rest ends => ?_
  have whole : (more ++ rest).takeWhile continuesName = more := by
    rw [takeWhile_append_of_breaks more ends.halts.breaks]
    exact List.takeWhile_eq_self_iff.mpr (List.all_eq_true.mp continues)
  have taken : String.ofList ((first :: (more ++ rest)).take (more.length + 1)) = name := by
    rw [List.take_succ_cons, List.take_left, ← characters, String.ofList_toList]
  simp only [lexeme, noSign, apart.2, starts, whole, taken, resolved,
    Bool.false_eq_true, if_false, if_true]

/-- The words of the boolean operators spell their lexemes. -/
theorem spells_logical (operator : Logical) :
    Spells scope Ends operator.opcode.text.toList [.logical operator] := by
  cases operator with
  | and => exact spells_word ⟨'a', ['n', 'd'], rfl, by decide, by decide⟩ rfl
  | or => exact spells_word ⟨'o', ['r'], rfl, by decide, by decide⟩ rfl

theorem spells_not : Spells scope Ends "not".toList [.not] :=
  spells_word ⟨'n', ['o', 't'], rfl, by decide, by decide⟩ rfl

theorem isWord_builtin (function : Builtin) : IsWord function.name := by
  cases function <;> exact ⟨_, _, rfl, by decide +kernel, by decide +kernel⟩

/-! ### Literals -/

/-- What a literal starts with starts a number, and nothing else. -/
theorem classes_of_literal {first : Char} (starts : isPlainDigit first = true ∨ first = '.') :
    isBlank first = false ∧ startsNumber first = true ∧ ∀ rest, symbol? (first :: rest) = none := by
  rcases starts with digit | rfl
  · have range : Text.Ranges.contains [(0x30, 0x39)] first.toNat = true := by
      obtain ⟨low, high⟩ := Bool.and_eq_true_iff.mp digit
      exact Text.Ranges.contains_iff.mpr ⟨(0x30, 0x39), .head _, of_decide_eq_true low,
        of_decide_eq_true high⟩
    have starts : startsNumber first = true := by
      obtain ⟨interval, member, inside⟩ := Text.Ranges.contains_iff.mp range
      cases List.mem_singleton.mp member
      exact Bool.or_eq_true_iff.mpr (.inl (Text.Ranges.contains_iff.mpr ⟨_, .head _, inside⟩))
    exact ⟨Text.Ranges.contains_eq_false (by decide) range, starts, symbol?_of_startsNumber starts⟩
  · exact ⟨by decide, Bool.or_true _, symbol?_eq_none (by decide)⟩

/-- A literal spells the number that it gives. -/
theorem spells_literal (whole : Decimal.literalLength text = text.length) (nonempty : text ≠ []) :
    Spells scope Breaks text [.number { value := .real (Decimal.literalValue false text) }] := by
  cases text with
  | nil => exact absurd rfl nonempty
  | cons first more =>
      have some : Decimal.literalLength (first :: more) ≠ 0 := by
        rw [whole]
        exact Nat.succ_ne_zero _
      have starts := Decimal.starts_of_literalLength some
      obtain ⟨visible, startsNumber, noSign⟩ := classes_of_literal starts
      refine spells_of_lexeme visible fun position rest breaks => ?_
      have length : Decimal.literalLength (first :: (more ++ rest)) = more.length + 1 := by
        rw [← List.cons_append, Decimal.literalLength_append_of_whole whole breaks,
          List.length_cons]
      have read : number (first :: (more ++ rest)) =
          .ok (Decimal.literalValue false (first :: more), more.length + 1) := by
        simp only [number, length, List.drop_succ_cons, List.drop_left, List.take_succ_cons,
          List.take_left]
        cases rest with
        | nil => rfl
        | cons next behind => simp [breaks.1, breaks.2]
      simp only [lexeme, noSign, startsNumber, if_true, read]

end Lexer

end Formulary
