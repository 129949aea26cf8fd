import Formulary.Decimal.Literal
import Formulary.Number
import Formulary.Text.Blank

/-!
# Reading numbers from a command line

Three forms of numbers are read: whole numbers, doubles and complex numbers. Each may stand between
blanks, be written with the decimal digits of any script, and have single underscores between its
digits. Doubles may be infinite or undefined. A complex number is a real part, an imaginary part
with the unit `j`, or both; it may stand in parentheses.
-/

namespace Formulary.Reading

open Formulary.Text (isBlank isPlainDigit decimalValue?)

/-- Whether a character is a blank in the seven-bit range as numbers know it. -/
def isPlainBlank (character : Char) : Bool :=
  character == ' ' || ('\t' ≤ character && character ≤ '\r')

/-- A character as numbers see it: beyond the seven-bit range, blanks become spaces and decimal
digits of any script become plain digits; anything else there is no part of a number. -/
def plainCharacter (character : Char) : Char :=
  if character.toNat < 127 then character
  else if isBlank character then ' '
  else match decimalValue? character with
    | some value => Nat.digitChar value
    | none => '?'

/-- A text as numbers see it. -/
def plainText (text : List Char) : List Char :=
  if text.all fun character => character.toNat < 128 then text else text.map plainCharacter

/-- A text without the blanks at its head. -/
def skipBlanks (text : List Char) : List Char :=
  text.dropWhile isPlainBlank

/-- A text without the blanks at both ends. -/
def strip (text : List Char) : List Char :=
  (skipBlanks (skipBlanks text).reverse).reverse

/-- A text without underscores, each of which must stand between two digits. -/
def joinDigits (previous : Char) : List Char → Option (List Char)
  | [] => if previous = '_' then none else some []
  | character :: rest =>
    if character = '_' then
      if isPlainDigit previous then joinDigits character rest else none
    else if previous = '_' && !isPlainDigit character then none
    else (joinDigits character rest).map fun joined => character :: joined

/-- A text without underscores; a text that has none is any text. -/
def withoutUnderscores (text : List Char) : Option (List Char) :=
  if text.contains '_' then joinDigits ' ' text else some text

/-- The text after a word in either case. -/
def afterWord? : (word text : List Char) → Option (List Char)
  | [], rest => some rest
  | _, [] => none
  | letter :: word, character :: rest =>
    if character.toLower = letter then afterWord? word rest else none

/-- The infinite or undefined value at the head of a text, and the text after it. -/
def special? (negative : Bool) (text : List Char) : Option (Float × List Char) :=
  let infinite := if negative then -Binary64.infinity else Binary64.infinity
  if let some rest := afterWord? ['i', 'n', 'f', 'i', 'n', 'i', 't', 'y'] text then
    some (infinite, rest)
  else if let some rest := afterWord? ['i', 'n', 'f'] text then some (infinite, rest)
  else if let some rest := afterWord? ['n', 'a', 'n'] text then some (Binary64.nan, rest)
  else none

/-- The unsigned double at the head of a text, and the text after it. -/
def magnitude? (negative : Bool) (text : List Char) : Option (Float × List Char) :=
  match Decimal.literalLength text with
  | 0 => special? negative text
  | length => some (Decimal.literalValue negative (text.take length), text.drop length)

/-- The double at the head of a text, and the text after it. -/
def head? : List Char → Option (Float × List Char)
  | '-' :: rest => magnitude? true rest
  | '+' :: rest => magnitude? false rest
  | text => magnitude? false text

/-- The double that a text stands for. -/
def float? (text : String) : Option Float := do
  let plain ← withoutUnderscores (strip (plainText text.toList))
  match ← head? plain with
  | (value, []) => some value
  | _ => none

/-- Whether a character is the imaginary unit. -/
def isUnit (character : Char) : Bool := character == 'j' || character == 'J'

/-- The text after the imaginary unit. -/
def afterUnit? : List Char → Option (List Char)
  | character :: rest => if isUnit character then some rest else none
  | [] => none

/-- The imaginary part at the head of a text that starts with a sign: a double, or the sign alone
for a unit. -/
def signedImaginary? (text : List Char) : Option (Float × List Char) := do
  let (value, rest) ←
    match head? text, text with
    | some found, _ => some found
    | none, '-' :: rest => some (-1, rest)
    | none, '+' :: rest => some (1, rest)
    | none, _ => none
  return (value, ← afterUnit? rest)

/-- The complex number at the head of a text, and the text after it. -/
def complexHead? (text : List Char) : Option (Cartesian × List Char) :=
  match head? text with
  | some (value, '+' :: rest) =>
    (signedImaginary? ('+' :: rest)).map fun (imaginary, rest) => (⟨value, imaginary⟩, rest)
  | some (value, '-' :: rest) =>
    (signedImaginary? ('-' :: rest)).map fun (imaginary, rest) => (⟨value, imaginary⟩, rest)
  | some (value, rest) =>
    match afterUnit? rest with
    | some rest => some (⟨0, value⟩, rest)
    | none => some (⟨value, 0⟩, rest)
  | none =>
    match text with
    | '+' :: _ | '-' :: _ =>
      (signedImaginary? text).map fun (imaginary, rest) => (⟨0, imaginary⟩, rest)
    | _ => (afterUnit? text).map fun rest => (⟨0, 1⟩, rest)

/-- The complex number that a text stands for. -/
def complex? (text : String) : Option Cartesian := do
  let plain ← withoutUnderscores (plainText text.toList)
  match skipBlanks plain with
  | '(' :: inner =>
    let (value, rest) ← complexHead? (skipBlanks inner)
    match skipBlanks rest with
    | ')' :: rest => if skipBlanks rest = [] then some value else none
    | _ => none
  | plain =>
    let (value, rest) ← complexHead? plain
    if skipBlanks rest = [] then some value else none

/-- The natural number that a nonempty word of digits stands for. -/
def natural? (text : List Char) : Option Nat :=
  if !text.isEmpty && text.all isPlainDigit then some (Decimal.digitsValue text) else none

/-- The whole number that a text stands for. -/
def integer? (text : String) : Option Int := do
  let plain ← withoutUnderscores (strip (plainText text.toList))
  match plain with
  | '-' :: digits => (natural? digits).map fun value => -(value : Int)
  | '+' :: digits => (natural? digits).map fun value => (value : Int)
  | digits => (natural? digits).map fun value => (value : Int)

end Formulary.Reading
