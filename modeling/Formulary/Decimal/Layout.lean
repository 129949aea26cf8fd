import Formulary.Decimal.Shortest

/-!
# Layout of decimal numbers

The digits of a number are laid out positionally when its exponent is within bounds, and with a
marked exponent otherwise. What the formats of this library decide for themselves is one record,
`Layout`; its two values are the layout of a lone number and that of a part of a complex number.
-/

namespace Formulary.Decimal

/-- What a number format decides. -/
structure Layout where
  /-- The least exponent of the first digit that is laid out positionally. -/
  leastPositional : Int
  /-- The least exponent of the first digit that is too large for positional layout. -/
  positionalEnd : Int
  /-- Whether a whole number laid out positionally ends in `.0`. -/
  marksWhole : Bool

/-- The layout of a lone number: positional from 0.0001 to below `10 ^ 16`, whole numbers
marked. -/
def Layout.lone : Layout := ⟨-4, 16, true⟩

/-- The layout of a part of a complex number: the same without the mark. -/
def Layout.part : Layout := ⟨-4, 16, false⟩

/-- The character of a decimal digit. -/
def digitText (digits : List Nat) : List Char :=
  digits.map Nat.digitChar

/-- The text of a natural number. -/
def naturalText (value : Nat) : List Char :=
  if value = 0 then ['0'] else digitText (naturalDigits value)

/-- An exponent with its sign and at least two digits. -/
def exponentText (exponent : Int) : List Char :=
  let digits := naturalText exponent.natAbs
  (if exponent < 0 then '-' else '+') :: (if digits.length < 2 then '0' :: digits else digits)

/-- The text of digits under a layout. -/
def Digits.text (number : Digits) (layout : Layout) : List Char :=
  let digits := digitText number.digits
  if layout.leastPositional ≤ number.exponent ∧ number.exponent < layout.positionalEnd then
    if number.exponent < 0 then
      '0' :: '.' :: List.replicate ((-number.exponent).toNat - 1) '0' ++ digits
    else
      let before := number.exponent.toNat + 1
      let whole := digits.take before ++ List.replicate (before - digits.length) '0'
      match digits.drop before with
      | [] => if layout.marksWhole then whole ++ ['.', '0'] else whole
      | fraction => whole ++ '.' :: fraction
  else
    let mantissa :=
      match digits with
      | first :: second :: more => first :: '.' :: second :: more
      | few => few
    mantissa ++ 'e' :: exponentText number.exponent

/-- The text of a double under a layout. NaN has no sign. -/
def floatText (layout : Layout) (value : Float) : List Char :=
  match Binary64.decode? value with
  | none =>
    if value.isNaN then ['n', 'a', 'n']
    else if value < 0 then ['-', 'i', 'n', 'f']
    else ['i', 'n', 'f']
  | some parts =>
    let sign := if parts.negative then ['-'] else []
    let magnitude :=
      if parts.significand = 0 then
        if layout.marksWhole then ['0', '.', '0'] else ['0']
      else (shortest parts).text layout
    sign ++ magnitude

/-- The text of an integer. -/
def integerText (value : Int) : List Char :=
  if value < 0 then '-' :: naturalText value.natAbs else naturalText value.natAbs

end Formulary.Decimal
