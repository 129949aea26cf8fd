import Formulary.CompileError
import Formulary.Decimal.Literal
import Formulary.Text.Blank

/-!
# Scanning a source

The scanner walks over the characters of a source once. Blanks are skipped; at any other character
it tells how far the lexeme that starts there reaches, and what it says. A number takes the longest
literal there is and must not be followed by a letter, a digit, an underscore or a point. A name
is looked up at once.
-/

namespace Formulary

open Formulary.Text (isBlank isLetter isAlphanumeric isDigit)

/-- The names that a source may use: the symbols and the builtin functions. -/
structure Scope where
  symbols : SymbolTables := {}
  functions : List Builtin := Builtin.all

/-- What a name stands for. Keywords and the imaginary unit come first, then arguments, variables,
constants and functions. -/
def Scope.resolve (scope : Scope) (name : String) : Option Lexeme :=
  if name = "and" then some (.logical .and)
  else if name = "or" then some (.logical .or)
  else if name = "not" then some .not
  else if name = "I" then some (.number { value := .complex Cartesian.unit })
  else if let some argument := scope.symbols.arguments.find? name then some (.argument argument)
  else if let some cell := scope.symbols.cells.find? name then some (.cell cell)
  else if let some constant := scope.symbols.constants.find? name then some (.constant constant)
  else (Builtin.find? scope.functions name).map .function

namespace Lexer

/-- Whether a name can start with the character. -/
def startsName (character : Char) : Bool :=
  character == '_' || isLetter character

/-- Whether a name can go on with the character. -/
def continuesName (character : Char) : Bool :=
  character == '_' || isAlphanumeric character

/-- Whether a number can start with the character. -/
def startsNumber (character : Char) : Bool :=
  isDigit character || character == '.'

/-- How far a malformed number reaches beyond the literal at its head: over name characters and
points, and over signs that follow the letter `e`. -/
def gluedLength (previous : Char) : List Char → Nat
  | [] => 0
  | character :: rest =>
    if continuesName character || character == '.' then gluedLength character rest + 1
    else if (character == '+' || character == '-') && (previous == 'e' || previous == 'E') then
      gluedLength character rest + 1
    else 0

/-- The number at the head of a text and its length, or the length of the malformed number
there. -/
def number (text : List Char) : Except Nat (Float × Nat) :=
  match Decimal.literalLength text with
  | 0 => .error 1
  | length =>
    let rest := text.drop length
    match rest with
    | [] => .ok (Decimal.literalValue false (text.take length), length)
    | next :: _ =>
      if continuesName next || next == '.' then
        .error (length + gluedLength ((text.take length).getLastD next) rest)
      else .ok (Decimal.literalValue false (text.take length), length)

/-- The operator or punctuation mark at the head of a text and its length. A comparison sign is
sought in a window of two characters, and it takes the whole window where no second character is
left: a sign at the end of a text ends one place behind it. -/
def symbol? : List Char → Option (Lexeme × Nat)
  | ['>'] => some (.comparison .greater, 2)
  | ['<'] => some (.comparison .less, 2)
  | '>' :: '=' :: _ => some (.comparison .greaterEqual, 2)
  | '<' :: '=' :: _ => some (.comparison .lessEqual, 2)
  | '=' :: '=' :: _ => some (.comparison .equal, 2)
  | '>' :: _ => some (.comparison .greater, 1)
  | '<' :: _ => some (.comparison .less, 1)
  | '+' :: _ => some (.plus, 1)
  | '-' :: _ => some (.minus, 1)
  | '*' :: _ => some (.star, 1)
  | '/' :: _ => some (.slash, 1)
  | '(' :: _ => some (.leftParen, 1)
  | ')' :: _ => some (.rightParen, 1)
  | ',' :: _ => some (.comma, 1)
  | _ => none

/-- The lexeme at the head of a text and its length. -/
def lexeme (scope : Scope) (position : Nat) (first : Char) (rest : List Char) :
    Except CompileError (Lexeme × Nat) :=
  let text := first :: rest
  match symbol? text with
  | some found => .ok found
  | none =>
    if startsNumber first then
      match number text with
      | .ok (value, length) => .ok (.number { value := .real value }, length)
      | .error length =>
        .error ⟨.malformedNumber (text.take length), position, position + length⟩
    else if startsName first then
      let length := (rest.takeWhile continuesName).length + 1
      let name := String.ofList (text.take length)
      match scope.resolve name with
      | some found => .ok (found, length)
      | none => .error ⟨.unknownName name, position, position + length⟩
    else .error ⟨.unexpectedCharacter first, position, position + 1⟩

/-- The tokens of a text whose first character has the given position. A lexeme has at least one
character, so what follows it is shorter. -/
def scan (scope : Scope) (position : Nat) : List Char → Except CompileError (List Token)
  | [] => .ok []
  | first :: rest =>
    if isBlank first then scan scope (position + 1) rest
    else
      match lexeme scope position first rest with
      | .error error => .error error
      | .ok (found, length) =>
        let token : Token :=
          ⟨found, String.ofList ((first :: rest).take length), position, position + length⟩
        match scan scope (position + length) (rest.drop (length - 1)) with
        | .error error => .error error
        | .ok tokens => .ok (token :: tokens)
termination_by text => text.length
decreasing_by
  all_goals simp only [List.length_drop, List.length_cons]; omega

end Lexer

/-- The tokens of a source, without the one at its end. -/
def tokenize (scope : Scope) (source : String) : Except CompileError (List Token) :=
  Lexer.scan scope 0 source.toList

end Formulary
