import Formulary.Binary64
import Formulary.Text.Numeral

/-!
# Reading decimal numbers

A decimal literal is a word of digits with an optional point, and an optional exponent. Its value
is the double nearest to the exact decimal number. The scanners count characters, so that a caller
can cut the literal out of a longer text.
-/

namespace Formulary.Decimal

open Formulary.Text (isPlainDigit plainDigitValue)

/-- The value of a word of digits. -/
def digitsValue (digits : List Char) : Nat :=
  digits.foldl (fun value digit => 10 * value + plainDigitValue digit) 0

/-- The length of the mantissa at the head of a text: digits with an optional point and further
digits, or a point and at least one digit. Zero when there is none. -/
def mantissaLength (text : List Char) : Nat :=
  let whole := (text.takeWhile isPlainDigit).length
  match text.drop whole with
  | '.' :: rest =>
    let fraction := (rest.takeWhile isPlainDigit).length
    if whole = 0 ∧ fraction = 0 then 0 else whole + 1 + fraction
  | _ => whole

/-- The length of the exponent at the head of a text: a marker, an optional sign and at least one
digit. Zero when there is none. -/
def exponentLength : List Char → Nat
  | marker :: rest =>
    if marker = 'e' ∨ marker = 'E' then
      match rest with
      | sign :: digits =>
        if sign = '+' ∨ sign = '-' then
          match (digits.takeWhile isPlainDigit).length with
          | 0 => 0
          | count => count + 2
        else
          match (rest.takeWhile isPlainDigit).length with
          | 0 => 0
          | count => count + 1
      | [] => 0
    else 0
  | [] => 0

/-- The length of the longest literal at the head of a text; zero when there is none. -/
def literalLength (text : List Char) : Nat :=
  match mantissaLength text with
  | 0 => 0
  | mantissa => mantissa + exponentLength (text.drop mantissa)

/-- The double nearest to `count * 10 ^ exponent`. Powers of ten far beyond the range of doubles
are not computed: from `10 ^ 310` on the value is infinite, and below `10 ^ -330` it is zero. -/
def scaledValue (negative : Bool) (count : Nat) (exponent : Int) : Float :=
  let digits : Int := count.log2 * 30103 / 100000
  if count = 0 then Binary64.ofRatio negative 0 1
  else if 310 < exponent + digits then Binary64.ofRatio negative (Nat.pow 10 310) 1
  else if exponent + digits < -330 then Binary64.ofRatio negative 0 1
  else if 0 ≤ exponent then Binary64.ofRatio negative (count * Nat.pow 10 exponent.toNat) 1
  else Binary64.ofRatio negative count (Nat.pow 10 (-exponent).toNat)

/-- The exponent that an exponent text gives; an empty text gives zero. -/
def exponentValue : List Char → Int
  | [] => 0
  | _ :: '-' :: digits => -(digitsValue digits : Int)
  | _ :: '+' :: digits => digitsValue digits
  | _ :: digits => digitsValue digits

/-- The value of a literal. -/
def literalValue (negative : Bool) (literal : List Char) : Float :=
  let mantissa := literal.take (mantissaLength literal)
  let whole := mantissa.takeWhile isPlainDigit
  let fraction := mantissa.drop (whole.length + 1)
  let exponent := exponentValue (literal.drop mantissa.length)
  scaledValue negative (digitsValue (whole ++ fraction)) (exponent - fraction.length)

/-- A mantissa is no longer than the text it is read from. -/
theorem mantissaLength_le (text : List Char) : mantissaLength text ≤ text.length := by
  have wholeFits : (text.takeWhile isPlainDigit).length ≤ text.length :=
    (List.takeWhile_sublist _).length_le
  simp only [mantissaLength]
  split
  · rename_i rest dropped
    have lengths := congrArg List.length dropped
    have fractionFits : (rest.takeWhile isPlainDigit).length ≤ rest.length :=
      (List.takeWhile_sublist _).length_le
    simp only [List.length_drop, List.length_cons] at lengths
    split <;> omega
  · exact wholeFits

/-- An exponent is no longer than the text it is read from. -/
theorem exponentLength_le (text : List Char) : exponentLength text ≤ text.length := by
  match text with
  | [] => simp [exponentLength]
  | [marker] => simp only [exponentLength]; split <;> simp
  | marker :: sign :: digits =>
    have signedFits : (digits.takeWhile isPlainDigit).length ≤ digits.length :=
      (List.takeWhile_sublist _).length_le
    have plainFits : ((sign :: digits).takeWhile isPlainDigit).length ≤ (sign :: digits).length :=
      (List.takeWhile_sublist _).length_le
    simp only [exponentLength, List.length_cons] at *
    split
    · split
      · split <;> omega
      · split <;> omega
    · omega

/-- A literal is no longer than the text it is read from. -/
theorem literalLength_le (text : List Char) : literalLength text ≤ text.length := by
  have mantissaFits := mantissaLength_le text
  have exponentFits := exponentLength_le (text.drop (mantissaLength text))
  rw [List.length_drop] at exponentFits
  simp only [literalLength]
  split <;> omega

end Formulary.Decimal
