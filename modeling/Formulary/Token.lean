import Formulary.Builtin
import Formulary.Opcode
import Formulary.Symbols

/-!
# Tokens

A token is a lexeme with the text it was read from and the span of that text in the source. Names
are resolved when the source is scanned, so a lexeme already carries the constant, cell, argument
or function that its name stands for.
-/

namespace Formulary

/-- The kinds of tokens. -/
inductive Kind
  | plus
  | minus
  | star
  | slash
  | leftParen
  | rightParen
  | comma
  | comparison (operator : Comparison)
  | logical (operator : Logical)
  | not
  | number
  | argument
  | cell
  | constant
  | function
  | finish
  deriving DecidableEq, Repr

/-- The name of a kind in diagnostics. -/
def Kind.label : Kind → String
  | plus => "PLUS"
  | minus => "MINUS"
  | star => "STAR"
  | slash => "SLASH"
  | leftParen => "LPAREN"
  | rightParen => "RPAREN"
  | comma => "COMMA"
  | comparison operator => operator.opcode.label
  | logical operator => operator.opcode.label
  | not => "NOT"
  | number => "NUMBER"
  | argument => "ARGUMENT"
  | cell => "VARIABLE"
  | constant => "CONSTANT"
  | function => "FUNCTION"
  | finish => "EOF"

/-- What a token says. -/
inductive Lexeme
  | plus
  | minus
  | star
  | slash
  | leftParen
  | rightParen
  | comma
  | comparison (operator : Comparison)
  | logical (operator : Logical)
  | not
  | number (value : Constant)
  | argument (value : Argument)
  | cell (value : Cell)
  | constant (value : Constant)
  | function (value : Builtin)
  | finish

/-- The kind of a lexeme. -/
def Lexeme.kind : Lexeme → Kind
  | plus => .plus
  | minus => .minus
  | star => .star
  | slash => .slash
  | leftParen => .leftParen
  | rightParen => .rightParen
  | comma => .comma
  | comparison operator => .comparison operator
  | logical operator => .logical operator
  | not => .not
  | number _ => .number
  | argument _ => .argument
  | cell _ => .cell
  | constant _ => .constant
  | function _ => .function
  | finish => .finish

/-- A lexeme with its text and its span `[start, stop)` in the source. -/
structure Token where
  lexeme : Lexeme
  text : String
  start : Nat
  stop : Nat

namespace Token

/-- The kind of a token. -/
def kind (token : Token) : Kind := token.lexeme.kind

/-- The token at the end of a source. -/
def finish (position : Nat) : Token := ⟨.finish, "", position, position⟩

/-- The way diagnostics show a token: its kind, and its text in parentheses if it has one. -/
def describe (token : Token) : String :=
  if token.text = "" then token.kind.label else s!"{token.kind.label}({token.text})"

/-- The first of the tokens that are left, or the end of the source. -/
def current (finish : Nat) (tokens : List Token) : Token :=
  tokens.headD (Token.finish finish)

end Token

end Formulary
