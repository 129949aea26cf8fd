import Formulary.Text.Visible

/-!
# Quoted text

A text is quoted so that it can be shown inside a message: it stands between single quotes, or
between double quotes when it holds a single quote and no double one. Backslashes, the quote that
surrounds the text and every character that cannot be shown as it stands are escaped.
-/

namespace Formulary.Text

/-- The lower-case hexadecimal digits of a number, filled up with zeros to the given count. -/
def hexDigits : Nat → Nat → List Char
  | 0, _ => []
  | count + 1, value => hexDigits count (value / 16) ++ [Nat.digitChar (value % 16)]

theorem length_hexDigits (count value : Nat) : (hexDigits count value).length = count := by
  induction count generalizing value with
  | zero => rfl
  | succ count inductionHypothesis => simp [hexDigits, inductionHypothesis]

/-- The escape of a character by its code point: two, four or eight hexadecimal digits, whichever
is the least that suffices. -/
def escapeByCode (code : Nat) : List Char :=
  if code < 0x100 then '\\' :: 'x' :: hexDigits 2 code
  else if code < 0x10000 then '\\' :: 'u' :: hexDigits 4 code
  else '\\' :: 'U' :: hexDigits 8 code

/-- A character as it is written between two `quote`s. -/
def escapeChar (quote character : Char) : List Char :=
  if character = quote ∨ character = '\\' then ['\\', character]
  else if character = '\t' then ['\\', 't']
  else if character = '\n' then ['\\', 'n']
  else if character = '\r' then ['\\', 'r']
  else if isVisible character then [character]
  else escapeByCode character.toNat

/-- The quote that surrounds a text. -/
def quoteFor (text : List Char) : Char :=
  if text.contains '\'' && !text.contains '"' then '"' else '\''

/-- A text between quotes. -/
def quoteChars (text : List Char) : List Char :=
  let quote := quoteFor text
  quote :: text.flatMap (escapeChar quote) ++ [quote]

/-- A text between quotes. -/
def quoted (text : String) : String :=
  String.ofList (quoteChars text.toList)

/-- A single byte beyond the seven-bit range, as a quoted byte string. -/
def quotedByte (byte : UInt8) : String :=
  String.ofList ('b' :: '\'' :: '\\' :: 'x' :: hexDigits 2 byte.toNat ++ ['\''])

example : quoteChars "a'b".toList = "\"a'b\"".toList := by decide

end Formulary.Text
