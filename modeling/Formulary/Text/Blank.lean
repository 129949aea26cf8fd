import Formulary.Text.Ranges

/-!
# Blank characters

Blanks separate the tokens of a formula and surround the numbers of a command line. They are the
separators and the control characters that act as spaces in bidirectional text.
-/

namespace Formulary.Text

/-- The blank characters. -/
def blankRanges : Ranges :=
  [(0x9, 0xD), (0x1C, 0x20), (0x85, 0x85), (0xA0, 0xA0), (0x1680, 0x1680), (0x2000, 0x200A),
   (0x2028, 0x2029), (0x202F, 0x202F), (0x205F, 0x205F), (0x3000, 0x3000)]

/-- Whether a character is blank. -/
def isBlank (character : Char) : Bool :=
  blankRanges.contains character.toNat

example : isBlank ' ' = true ∧ isBlank '\n' = true ∧ isBlank '\u00a0' = true := by decide

example : isBlank '\u200b' = false ∧ isBlank '_' = false := by decide

/-- A text without the blanks at its two ends. -/
def trimBlanks (text : List Char) : List Char :=
  ((text.dropWhile isBlank).reverse.dropWhile isBlank).reverse

end Formulary.Text
