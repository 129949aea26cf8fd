import Formulary.CompileError
import Formulary.Expression

/-!
# Reading expressions

The grammar has seven levels; each operator level is left associative.

    expression := negation (("and" | "or") negation)*
    negation   := "not" negation | comparison
    comparison := additive ((">" | "<" | ">=" | "<=" | "==") additive)*
    additive   := term (("+" | "-") term)*
    term       := unary (("*" | "/") unary)*
    unary      := "-" unary | primary
    primary    := NUMBER | CONSTANT | VARIABLE | ARGUMENT
                | FUNCTION "(" list ")" | "(" list ")"
    list       := expression ("," expression)*

Comparisons, boolean operators and function arguments take scalars, and a divisor is a scalar. An
operand on the left is checked when its operator is read, and one on the right when it ends.

Each function reads one level from the tokens that are left and returns the tokens it leaves.
Those are fewer, which is why the descent ends.
-/

namespace Formulary.Expression

/-- The tokens that a level leaves: fewer than it was given. -/
abbrev Fewer (tokens : List Token) := { rest : List Token // rest.length < tokens.length }

/-- The tokens that the tail of a level leaves: no more than it was given. -/
abbrev NoMore (tokens : List Token) := { rest : List Token // rest.length ≤ tokens.length }

/-- An item of a list, with the token it starts at. -/
structure Item where
  first : Token
  expression : Expression

/-- The items of a list: at least one. -/
structure Items where
  head : Item
  tail : List Item

/-- The items as one expression. -/
def Items.join (items : Items) : Expression :=
  items.tail.foldl (fun joined item => .concat joined item.expression) items.head.expression

/-- The number of items. -/
def Items.count (items : Items) : Nat := items.tail.length + 1

/-- The kinds of tokens that a primary can start with, together with the signs that may stand
before one. -/
def primaryStart : List Kind :=
  [.number, .constant, .cell, .argument, .function, .leftParen, .minus, .not]

/-- An operand that is a scalar, or the error that blames the token it starts at. -/
def requireScalar (operand : Expression) (blamed : Token) (role : Role) :
    Except CompileError Unit :=
  if operand.width = 1 then .ok ()
  else .error (.atToken (.vectorOperand role operand.width blamed) blamed)

/-- The tokens after one of the given kind. -/
def expect (finish : Nat) (kind : Kind) :
    (tokens : List Token) → Except CompileError (Token × Fewer tokens)
  | [] => .error (.unexpected (Token.finish finish) [kind])
  | token :: rest =>
    if token.kind = kind then .ok (token, ⟨rest, Nat.lt_succ_self _⟩)
    else .error (.unexpected token [kind])

/-- The call of a function with the given items, unless there are too many or too few of them, or
one is no scalar. -/
def makeCall (function : Builtin) (name close : Token) (items : Items) :
    Except CompileError Expression := do
  if items.count ≠ function.arity then
    .error ⟨.wrongArity function items.count, name.start, close.stop⟩
  (items.head :: items.tail).forM fun item =>
    requireScalar item.expression item.first (.argument function)
  return .call function items.join

mutual

/-- Reads an expression. -/
def parseExpression (finish : Nat) (tokens : List Token) :
    Except CompileError (Expression × Fewer tokens) := do
  let start := Token.current finish tokens
  let (left, ⟨rest, fewer⟩) ← parseNegation finish tokens
  let (whole, ⟨rest, noMore⟩) ← parseLogicalTail finish start left rest
  return (whole, ⟨rest, by omega⟩)
termination_by 9 * tokens.length + 7

/-- Reads the boolean operators that follow an operand. -/
def parseLogicalTail (finish : Nat) (start : Token) (left : Expression) (tokens : List Token) :
    Except CompileError (Expression × NoMore tokens) :=
  match tokens with
  | [] => .ok (left, ⟨[], Nat.le_refl _⟩)
  | token :: after =>
    match token.lexeme with
    | .logical operator => do
      requireScalar left start (.logical operator)
      let blamed := Token.current finish after
      let (right, ⟨rest, fewer⟩) ← parseNegation finish after
      requireScalar right blamed (.logical operator)
      let (whole, ⟨rest, noMore⟩) ←
        parseLogicalTail finish start (.logical operator left right) rest
      return (whole, ⟨rest, by simp only [List.length_cons]; omega⟩)
    | _ => .ok (left, ⟨token :: after, Nat.le_refl _⟩)
termination_by 9 * tokens.length
decreasing_by all_goals simp only [List.length_cons]; omega

/-- Reads a negation. -/
def parseNegation (finish : Nat) (tokens : List Token) :
    Except CompileError (Expression × Fewer tokens) :=
  match tokens with
  | [] => parseComparison finish []
  | token :: after =>
    match token.lexeme with
    | .not => do
      let blamed := Token.current finish after
      let (operand, ⟨rest, fewer⟩) ← parseNegation finish after
      requireScalar operand blamed .negation
      return (.not operand, ⟨rest, by simp only [List.length_cons]; omega⟩)
    | _ => parseComparison finish (token :: after)
termination_by 9 * tokens.length + 6
decreasing_by all_goals simp only [List.length_cons, List.length_nil]; omega

/-- Reads a comparison. -/
def parseComparison (finish : Nat) (tokens : List Token) :
    Except CompileError (Expression × Fewer tokens) := do
  let start := Token.current finish tokens
  let (left, ⟨rest, fewer⟩) ← parseAdditive finish tokens
  let (whole, ⟨rest, noMore⟩) ← parseComparisonTail finish start left rest
  return (whole, ⟨rest, by omega⟩)
termination_by 9 * tokens.length + 5

/-- Reads the comparisons that follow an operand. -/
def parseComparisonTail (finish : Nat) (start : Token) (left : Expression)
    (tokens : List Token) : Except CompileError (Expression × NoMore tokens) :=
  match tokens with
  | [] => .ok (left, ⟨[], Nat.le_refl _⟩)
  | token :: after =>
    match token.lexeme with
    | .comparison operator => do
      requireScalar left start (.comparison operator)
      let blamed := Token.current finish after
      let (right, ⟨rest, fewer⟩) ← parseAdditive finish after
      requireScalar right blamed (.comparison operator)
      let (whole, ⟨rest, noMore⟩) ←
        parseComparisonTail finish start (.comparison operator left right) rest
      return (whole, ⟨rest, by simp only [List.length_cons]; omega⟩)
    | _ => .ok (left, ⟨token :: after, Nat.le_refl _⟩)
termination_by 9 * tokens.length
decreasing_by all_goals simp only [List.length_cons]; omega

/-- Reads a sum. -/
def parseAdditive (finish : Nat) (tokens : List Token) :
    Except CompileError (Expression × Fewer tokens) := do
  let (left, ⟨rest, fewer⟩) ← parseTerm finish tokens
  let (whole, ⟨rest, noMore⟩) ← parseAdditiveTail finish left rest
  return (whole, ⟨rest, by omega⟩)
termination_by 9 * tokens.length + 4

/-- Reads the terms that follow a term. -/
def parseAdditiveTail (finish : Nat) (left : Expression) (tokens : List Token) :
    Except CompileError (Expression × NoMore tokens) :=
  match tokens with
  | [] => .ok (left, ⟨[], Nat.le_refl _⟩)
  | token :: after =>
    match token.lexeme with
    | .plus => do
      let (right, ⟨rest, fewer⟩) ← parseTerm finish after
      let (whole, ⟨rest, noMore⟩) ← parseAdditiveTail finish (.sum .plus left right) rest
      return (whole, ⟨rest, by simp only [List.length_cons]; omega⟩)
    | .minus => do
      let (right, ⟨rest, fewer⟩) ← parseTerm finish after
      let (whole, ⟨rest, noMore⟩) ← parseAdditiveTail finish (.sum .minus left right) rest
      return (whole, ⟨rest, by simp only [List.length_cons]; omega⟩)
    | _ => .ok (left, ⟨token :: after, Nat.le_refl _⟩)
termination_by 9 * tokens.length
decreasing_by all_goals simp only [List.length_cons]; omega

/-- Reads a term. -/
def parseTerm (finish : Nat) (tokens : List Token) :
    Except CompileError (Expression × Fewer tokens) := do
  let (left, ⟨rest, fewer⟩) ← parseUnary finish tokens
  let (whole, ⟨rest, noMore⟩) ← parseTermTail finish left rest
  return (whole, ⟨rest, by omega⟩)
termination_by 9 * tokens.length + 3

/-- Reads the factors and divisors that follow a factor. -/
def parseTermTail (finish : Nat) (left : Expression) (tokens : List Token) :
    Except CompileError (Expression × NoMore tokens) :=
  match tokens with
  | [] => .ok (left, ⟨[], Nat.le_refl _⟩)
  | token :: after =>
    match token.lexeme with
    | .star => do
      let (right, ⟨rest, fewer⟩) ← parseUnary finish after
      let (whole, ⟨rest, noMore⟩) ← parseTermTail finish (.product left right) rest
      return (whole, ⟨rest, by simp only [List.length_cons]; omega⟩)
    | .slash => do
      let (right, ⟨rest, fewer⟩) ← parseUnary finish after
      if right.width ≠ 1 then
        .error (.atToken (.vectorDivisor right.width token) token)
      let (whole, ⟨rest, noMore⟩) ← parseTermTail finish (.quotient left right) rest
      return (whole, ⟨rest, by simp only [List.length_cons]; omega⟩)
    | _ => .ok (left, ⟨token :: after, Nat.le_refl _⟩)
termination_by 9 * tokens.length
decreasing_by all_goals simp only [List.length_cons]; omega

/-- Reads a factor. -/
def parseUnary (finish : Nat) (tokens : List Token) :
    Except CompileError (Expression × Fewer tokens) :=
  match tokens with
  | [] => parsePrimary finish []
  | token :: after =>
    match token.lexeme with
    | .minus => do
      let (operand, ⟨rest, fewer⟩) ← parseUnary finish after
      return (.negate operand, ⟨rest, by simp only [List.length_cons]; omega⟩)
    | _ => parsePrimary finish (token :: after)
termination_by 9 * tokens.length + 2
decreasing_by all_goals simp only [List.length_cons, List.length_nil]; omega

/-- Reads a primary. -/
def parsePrimary (finish : Nat) (tokens : List Token) :
    Except CompileError (Expression × Fewer tokens) :=
  match tokens with
  | [] => .error (.unexpected (Token.finish finish) primaryStart)
  | token :: after =>
    match token.lexeme with
    | .number value => .ok (.constant value, ⟨after, Nat.lt_succ_self _⟩)
    | .constant value => .ok (.constant value, ⟨after, Nat.lt_succ_self _⟩)
    | .cell named => .ok (.cell named, ⟨after, Nat.lt_succ_self _⟩)
    | .argument declared => .ok (.argument declared, ⟨after, Nat.lt_succ_self _⟩)
    | .function function => do
      let (_, ⟨inner, fewerInner⟩) ← expect finish .leftParen after
      let (items, ⟨rest, fewer⟩) ← parseList finish inner
      let (close, ⟨rest, fewerRest⟩) ← expect finish .rightParen rest
      let call ← makeCall function token close items
      return (call, ⟨rest, by simp only [List.length_cons]; omega⟩)
    | .leftParen => do
      let (items, ⟨rest, fewer⟩) ← parseList finish after
      let (_, ⟨rest, fewerRest⟩) ← expect finish .rightParen rest
      return (items.join, ⟨rest, by simp only [List.length_cons]; omega⟩)
    | _ => .error (.unexpected token primaryStart)
termination_by 9 * tokens.length + 1
decreasing_by all_goals simp only [List.length_cons]; omega

/-- Reads the items of a list. -/
def parseList (finish : Nat) (tokens : List Token) :
    Except CompileError (Items × Fewer tokens) := do
  let first := Token.current finish tokens
  let (expression, ⟨rest, fewer⟩) ← parseExpression finish tokens
  let (tail, ⟨rest, noMore⟩) ← parseListTail finish rest
  return (⟨⟨first, expression⟩, tail⟩, ⟨rest, by omega⟩)
termination_by 9 * tokens.length + 8

/-- Reads the items that follow an item. -/
def parseListTail (finish : Nat) (tokens : List Token) :
    Except CompileError (List Item × NoMore tokens) :=
  match tokens with
  | [] => .ok ([], ⟨[], Nat.le_refl _⟩)
  | token :: after =>
    match token.lexeme with
    | .comma => do
      let first := Token.current finish after
      let (expression, ⟨rest, fewer⟩) ← parseExpression finish after
      let (tail, ⟨rest, noMore⟩) ← parseListTail finish rest
      return (⟨first, expression⟩ :: tail, ⟨rest, by simp only [List.length_cons]; omega⟩)
    | _ => .ok ([], ⟨token :: after, Nat.le_refl _⟩)
termination_by 9 * tokens.length
decreasing_by all_goals simp only [List.length_cons]; omega

end

/-- Reads a whole formula, given its tokens and the position of its end. -/
def parse (finish : Nat) (tokens : List Token) : Except CompileError Expression := do
  let (whole, rest) ← parseExpression finish tokens
  match rest.val with
  | [] => return whole
  | token :: _ => .error (.unexpected token [.finish])

end Formulary.Expression
