import Formulary.Expression.Parse
import Formulary.Proofs.Grammar.Tree
import Formulary.Proofs.Outcome

/-!
# What each level reads

The functions that read expressions return the tokens they leave together with a proof that these
are fewer. `read` is the same without the proof and with the level as an argument, and each lemma
here says all that one step of it can do when it succeeds. Everything else about reading follows
from these lemmas.
-/

namespace Formulary.Grammar

open Expression (Fewer NoMore Item Items)
open Outcome (bind_eq_ok_iff)

/-- An outcome without the bound on the tokens that are left. -/
def bare {α : Type} {bounded : List Token → Prop}
    (outcome : Except CompileError (α × { rest : List Token // bounded rest })) :
    Except CompileError (α × List Token) :=
  outcome.map fun found => (found.1, found.2.val)

theorem bare_eq_ok_iff {α : Type} {bounded : List Token → Prop}
    {outcome : Except CompileError (α × { rest : List Token // bounded rest })} {found : α}
    {rest : List Token} :
    bare outcome = .ok (found, rest) ↔ ∃ bound, outcome = .ok (found, ⟨rest, bound⟩) := by
  rcases outcome with error | ⟨other, otherRest, bound⟩
  · simp [bare, Except.map]
  · constructor
    · intro same
      cases same
      exact ⟨bound, rfl⟩
    · rintro ⟨_, same⟩
      cases same
      rfl

theorem requireScalar_eq_ok_iff {operand : Expression} {blamed : Token} {role : Role}
    {done : Unit} :
    Expression.requireScalar operand blamed role = .ok done ↔ operand.width = 1 := by
  unfold Expression.requireScalar
  split
  case isTrue scalar => simp [scalar]
  case isFalse wide => simp [wide]

/-- Two parts are read one behind the other. -/
theorem bare_sequence_eq_ok_iff {α β γ : Type} {tokens : List Token} {bounded : List Token → Prop}
    (first : Except CompileError (α × Fewer tokens))
    (second : α → (middle : List Token) → Except CompileError (β × NoMore middle))
    (combine : α → β → γ) (keeps : ∀ rest : List Token, rest.length < tokens.length → bounded rest)
    {result : γ} {rest : List Token} :
    bare (do
        let left ← first
        let right ← second left.1 left.2.val
        return (combine left.1 right.1, (⟨right.2.val, keeps right.2.val
          (Nat.lt_of_le_of_lt right.2.property left.2.property)⟩ : { rest // bounded rest }))) =
        .ok (result, rest) ↔
      ∃ left middle right, bare first = .ok (left, middle) ∧
        bare (second left middle) = .ok (right, rest) ∧ combine left right = result := by
  simp only [bare_eq_ok_iff, bind_eq_ok_iff, Prod.exists, Subtype.exists]
  constructor
  · rintro ⟨_, left, middle, fewer, ranFirst, right, other, noMore, ranSecond, finished⟩
    cases finished
    exact ⟨left, middle, right, ⟨fewer, ranFirst⟩, ⟨noMore, ranSecond⟩, rfl⟩
  · rintro ⟨left, middle, right, ⟨fewer, ranFirst⟩, ⟨noMore, ranSecond⟩, rfl⟩
    exact ⟨keeps rest (by omega), left, middle, fewer, ranFirst, right, rest, noMore, ranSecond,
      rfl⟩

/-- An operand is read behind a sign, and the level goes on after it. -/
theorem bare_operand_eq_ok_iff {tokens : List Token} {bounded : List Token → Prop}
    (first : Except CompileError (Expression × Fewer tokens))
    (second : Expression → (middle : List Token) → Except CompileError (Expression × NoMore middle))
    (keeps : ∀ rest : List Token, rest.length < tokens.length → bounded rest) {whole : Expression}
    {rest : List Token} :
    bare (do
        let left ← first
        let right ← second left.1 left.2.val
        return (right.1, (⟨right.2.val, keeps right.2.val
          (Nat.lt_of_le_of_lt right.2.property left.2.property)⟩ : { rest // bounded rest }))) =
        .ok (whole, rest) ↔
      ∃ left middle, bare first = .ok (left, middle) ∧
        bare (second left middle) = .ok (whole, rest) := by
  refine (bare_sequence_eq_ok_iff first second (fun _ whole => whole) keeps).trans ?_
  simp

/-- Scalars are read on both sides of a sign, and the level goes on after them. -/
theorem bare_scalars_eq_ok_iff {tokens : List Token} {bounded : List Token → Prop}
    {left : Expression} {start blamed : Token} {role : Role}
    (first : Except CompileError (Expression × Fewer tokens))
    (second : Expression → (middle : List Token) → Except CompileError (Expression × NoMore middle))
    (keeps : ∀ rest : List Token, rest.length < tokens.length → bounded rest) {whole : Expression}
    {rest : List Token} :
    bare (do
        Expression.requireScalar left start role
        let right ← first
        Expression.requireScalar right.1 blamed role
        let whole ← second right.1 right.2.val
        return (whole.1, (⟨whole.2.val, keeps whole.2.val
          (Nat.lt_of_le_of_lt whole.2.property right.2.property)⟩ : { rest // bounded rest }))) =
        .ok (whole, rest) ↔
      ∃ right middle, bare first = .ok (right, middle) ∧ (left.width = 1 ∧ right.width = 1) ∧
        bare (second right middle) = .ok (whole, rest) := by
  simp only [bare_eq_ok_iff, bind_eq_ok_iff, Prod.exists, Subtype.exists, requireScalar_eq_ok_iff]
  constructor
  · rintro ⟨_, _, leftScalar, right, middle, fewer, ran, _, rightScalar, _, _, noMore, ranTail,
      finished⟩
    cases finished
    exact ⟨right, middle, ⟨fewer, ran⟩, ⟨leftScalar, rightScalar⟩, noMore, ranTail⟩
  · rintro ⟨right, middle, ⟨fewer, ran⟩, ⟨leftScalar, rightScalar⟩, noMore, ranTail⟩
    exact ⟨keeps rest (by omega), (), leftScalar, right, middle, fewer, ran, (), rightScalar, whole,
      rest, noMore, ranTail, rfl⟩

section Reading

variable (finish : Nat)

/-- The items of a list, and the tokens behind them. -/
def readItems (tokens : List Token) : Except CompileError (Items × List Token) :=
  bare (Expression.parseList finish tokens)

/-- The items behind an item, and the tokens behind them. -/
def readItemsTail (tokens : List Token) : Except CompileError (List Item × List Token) :=
  bare (Expression.parseListTail finish tokens)

/-- The expression that is read at a level, and the tokens behind it. The items of a list are read
by `readItems`. -/
def read (level : Level) (tokens : List Token) : Except CompileError (Expression × List Token) :=
  match level with
  | .list => (readItems finish tokens).map fun found => (found.1.join, found.2)
  | .expression => bare (Expression.parseExpression finish tokens)
  | .negation => bare (Expression.parseNegation finish tokens)
  | .comparison => bare (Expression.parseComparison finish tokens)
  | .additive => bare (Expression.parseAdditive finish tokens)
  | .term => bare (Expression.parseTerm finish tokens)
  | .unary => bare (Expression.parseUnary finish tokens)
  | .primary => bare (Expression.parsePrimary finish tokens)

/-- The expression that is read when a level goes on after an operand, and the tokens behind it. -/
def readTail (level : Level) (start : Token) (left : Expression) (tokens : List Token) :
    Except CompileError (Expression × List Token) :=
  match level with
  | .expression => bare (Expression.parseLogicalTail finish start left tokens)
  | .comparison => bare (Expression.parseComparisonTail finish start left tokens)
  | .additive => bare (Expression.parseAdditiveTail finish left tokens)
  | .term => bare (Expression.parseTermTail finish left tokens)
  | _ => .ok (left, tokens)

variable {finish}

/-- A level with signs is read by reading an operand and going on after it. -/
theorem read_eq_ok_iff {level : Level} (signs : level.hasSigns = true) (noList : level ≠ .list)
    {tokens rest : List Token} {whole : Expression} :
    read finish level tokens = .ok (whole, rest) ↔ ∃ left middle,
      read finish level.inner tokens = .ok (left, middle) ∧
        readTail finish level (Token.current finish tokens) left middle = .ok (whole, rest) := by
  cases level with
  | expression =>
      rw [read]
      simp only [Expression.parseExpression]
      exact bare_operand_eq_ok_iff _ (Expression.parseLogicalTail finish _) fun _ => id
  | comparison =>
      rw [read]
      simp only [Expression.parseComparison]
      exact bare_operand_eq_ok_iff _ (Expression.parseComparisonTail finish _) fun _ => id
  | additive =>
      rw [read]
      simp only [Expression.parseAdditive]
      exact bare_operand_eq_ok_iff _ (Expression.parseAdditiveTail finish) fun _ => id
  | term =>
      rw [read]
      simp only [Expression.parseTerm]
      exact bare_operand_eq_ok_iff _ (Expression.parseTermTail finish) fun _ => id
  | list => exact absurd rfl noList
  | _ => cases signs

/-- A level ends where its signs do. -/
theorem readTail_of_stop (level : Level) (start : Token) (left : Expression) {tokens : List Token}
    (stop : ∀ token ∈ tokens.head?, joins? token.lexeme ≠ some level) :
    readTail finish level start left tokens = .ok (left, tokens) := by
  cases tokens with
  | nil =>
      cases level <;>
        simp only [readTail, Expression.parseLogicalTail, Expression.parseComparisonTail,
          Expression.parseAdditiveTail, Expression.parseTermTail] <;> rfl
  | cons token after =>
      have other : joins? token.lexeme ≠ some level := stop token rfl
      cases level with
      | expression =>
          rw [readTail, Expression.parseLogicalTail]
          split
          case h_1 found => rw [found] at other; exact absurd rfl other
          case h_2 => rfl
      | comparison =>
          rw [readTail, Expression.parseComparisonTail]
          split
          case h_1 found => rw [found] at other; exact absurd rfl other
          case h_2 => rfl
      | additive =>
          rw [readTail, Expression.parseAdditiveTail]
          split
          case h_1 found => rw [found] at other; exact absurd rfl other
          case h_2 found => rw [found] at other; exact absurd rfl other
          case h_3 => rfl
      | term =>
          rw [readTail, Expression.parseTermTail]
          split
          case h_1 found => rw [found] at other; exact absurd rfl other
          case h_2 found => rw [found] at other; exact absurd rfl other
          case h_3 => rfl
      | _ => rfl

/-- A sign of a level is followed by an operand, and the level goes on after that. -/
theorem readTail_of_sign {level : Level} (noList : level ≠ .list) (sign : Sign level)
    {token start : Token} (spells : token.lexeme = sign.lexeme) {left whole : Expression}
    {after rest : List Token} :
    readTail finish level start left (token :: after) = .ok (whole, rest) ↔
      ∃ right middle, read finish level.inner after = .ok (right, middle) ∧
        sign.Accepts left.positiveWidth right.positiveWidth ∧
        readTail finish level start (sign.join left right) middle = .ok (whole, rest) := by
  have shorter : ∀ rest : List Token, rest.length < after.length →
      rest.length ≤ (token :: after).length := fun _ fewer => by simp; omega
  cases sign with
  | comma => exact absurd rfl noList
  | logical operator =>
      simp only [readTail, Expression.parseLogicalTail, spells, Sign.lexeme]
      exact bare_scalars_eq_ok_iff _ (fun right =>
        Expression.parseLogicalTail finish start (.logical operator left right)) shorter
  | comparison operator =>
      simp only [readTail, Expression.parseComparisonTail, spells, Sign.lexeme]
      exact bare_scalars_eq_ok_iff _ (fun right =>
        Expression.parseComparisonTail finish start (.comparison operator left right)) shorter
  | sum sign =>
      cases sign with
      | plus =>
          simp only [readTail, Expression.parseAdditiveTail, spells, Sign.lexeme, sumLexeme,
            Sign.Accepts, true_and]
          exact bare_operand_eq_ok_iff _ (fun right =>
            Expression.parseAdditiveTail finish (.sum .plus left right)) shorter
      | minus =>
          simp only [readTail, Expression.parseAdditiveTail, spells, Sign.lexeme, sumLexeme,
            Sign.Accepts, true_and]
          exact bare_operand_eq_ok_iff _ (fun right =>
            Expression.parseAdditiveTail finish (.sum .minus left right)) shorter
  | star =>
      simp only [readTail, Expression.parseTermTail, spells, Sign.lexeme, Sign.Accepts, true_and]
      exact bare_operand_eq_ok_iff _ (fun right =>
        Expression.parseTermTail finish (.product left right)) shorter
  | slash =>
      simp only [readTail, read, Level.inner, Expression.parseTermTail, spells, Sign.lexeme,
        bare_eq_ok_iff, bind_eq_ok_iff, Prod.exists, Subtype.exists]
      constructor
      · rintro ⟨_, right, middle, fewer, ran, continued⟩
        split at continued
        case isTrue wide => cases continued
        case isFalse scalar =>
            obtain ⟨⟨_, _, noMore⟩, ranTail, finished⟩ := bind_eq_ok_iff.mp continued
            cases finished
            exact ⟨right, middle, ⟨fewer, ran⟩, not_not.mp scalar, noMore, ranTail⟩
      · rintro ⟨right, middle, ⟨fewer, ran⟩, accepted, noMore, ranTail⟩
        have scalar : right.width = 1 := accepted
        have bound : rest.length ≤ (token :: after).length := by simp; omega
        refine ⟨bound, right, middle, fewer, ran, ?_⟩
        rw [if_neg (not_not.mpr scalar)]
        exact bind_eq_ok_iff.mpr ⟨_, ranTail, rfl⟩

/-- A sign before an operand is followed by the operand at the same level. -/
theorem read_signed {level : Level} (sign : Prefix level) {token : Token}
    (spells : token.lexeme = sign.lexeme) {whole : Expression} {after rest : List Token} :
    read finish level (token :: after) = .ok (whole, rest) ↔
      ∃ operand, read finish level after = .ok (operand, rest) ∧ sign.Accepts operand.width ∧
        sign.apply operand = whole := by
  cases sign with
  | not =>
      rw [read]
      simp only [Expression.parseNegation, spells, Prefix.lexeme, read, bare_eq_ok_iff,
        bind_eq_ok_iff, Prod.exists, Subtype.exists, requireScalar_eq_ok_iff]
      constructor
      · rintro ⟨_, operand, _, fewer, ran, _, scalar, finished⟩
        cases finished
        exact ⟨operand, ⟨fewer, ran⟩, scalar, rfl⟩
      · rintro ⟨operand, ⟨fewer, ran⟩, scalar, rfl⟩
        have bound : rest.length < (token :: after).length := by simp; omega
        exact ⟨bound, operand, rest, fewer, ran, (), scalar, rfl⟩
  | minus =>
      rw [read]
      simp only [Expression.parseUnary, spells, Prefix.lexeme, read, bare_eq_ok_iff,
        bind_eq_ok_iff, Prod.exists, Subtype.exists]
      constructor
      · rintro ⟨_, operand, _, fewer, ran, finished⟩
        cases finished
        exact ⟨operand, ⟨fewer, ran⟩, trivial, rfl⟩
      · rintro ⟨operand, ⟨fewer, ran⟩, _, rfl⟩
        have bound : rest.length < (token :: after).length := by simp; omega
        exact ⟨bound, operand, rest, fewer, ran, rfl⟩

/-- Without a sign before it, an operand is read at the tighter level. -/
theorem read_unsigned {level : Level} (below : level ≠ .primary)
    (noSigns : level.hasSigns = false) {tokens : List Token}
    (unsigned : ∀ token ∈ tokens.head?, leads? token.lexeme ≠ some level) :
    read finish level tokens = read finish level.inner tokens := by
  cases level with
  | negation =>
      cases tokens with
      | nil => rw [read, Expression.parseNegation]; rfl
      | cons token after =>
          have other : leads? token.lexeme ≠ some .negation := unsigned token rfl
          rw [read, Expression.parseNegation]
          split
          case h_1 found => rw [found] at other; exact absurd rfl other
          case h_2 => rfl
  | unary =>
      cases tokens with
      | nil => rw [read, Expression.parseUnary]; rfl
      | cons token after =>
          have other : leads? token.lexeme ≠ some .unary := unsigned token rfl
          rw [read, Expression.parseUnary]
          split
          case h_1 found => rw [found] at other; exact absurd rfl other
          case h_2 => rfl
  | primary => exact absurd rfl below
  | _ => cases noSigns

/-! ## Primaries and lists -/

theorem expect_eq_ok_iff {kind : Kind} {tokens rest : List Token} {found : Token}
    {fewer : rest.length < tokens.length} :
    Expression.expect finish kind tokens = .ok (found, ⟨rest, fewer⟩) ↔
      found.kind = kind ∧ tokens = found :: rest := by
  cases tokens with
  | nil => simp [Expression.expect]
  | cons token after =>
      by_cases same : token.kind = kind
      · simp only [Expression.expect, if_pos same, Except.ok.injEq, Prod.mk.injEq,
          Subtype.mk.injEq, List.cons.injEq]
        constructor
        · rintro ⟨rfl, rfl⟩
          exact ⟨same, rfl, rfl⟩
        · rintro ⟨_, rfl, rfl⟩
          exact ⟨rfl, rfl⟩
      · simp only [Expression.expect, if_neg same, reduceCtorEq, false_iff, List.cons.injEq]
        rintro ⟨expected, rfl, _⟩
        exact same expected

theorem kind_eq_leftParen_iff {token : Token} :
    token.kind = .leftParen ↔ token.lexeme = .leftParen := by
  unfold Token.kind
  cases token.lexeme <;> simp [Lexeme.kind]

theorem kind_eq_rightParen_iff {token : Token} :
    token.kind = .rightParen ↔ token.lexeme = .rightParen := by
  unfold Token.kind
  cases token.lexeme <;> simp [Lexeme.kind]

theorem forM_requireScalar_eq_ok_iff {items : List Item} {role : Role} {done : Unit} :
    (forM items fun item => Expression.requireScalar item.expression item.first role) = .ok done ↔
      ∀ item ∈ items, item.expression.width = 1 := by
  induction items with
  | nil => simp
  | cons item rest inductionHypothesis =>
      simp [bind_eq_ok_iff, requireScalar_eq_ok_iff, inductionHypothesis]

/-- A call is made of as many scalars as the function takes. -/
theorem makeCall_eq_ok_iff {function : Builtin} {name close : Token} {items : Items}
    {whole : Expression} :
    Expression.makeCall function name close items = .ok whole ↔
      items.count = function.arity ∧
        (∀ item ∈ items.head :: items.tail, item.expression.width = 1) ∧
        .call function items.join = whole := by
  unfold Expression.makeCall
  by_cases matching : items.count = function.arity
  · simp only [ne_eq, matching, not_true_eq_false, if_false, bind_eq_ok_iff, List.forM_eq_forM,
      forM_requireScalar_eq_ok_iff, true_and]
    constructor
    · rintro ⟨_, scalars, finished⟩
      exact ⟨scalars, Except.ok.inj finished⟩
    · rintro ⟨scalars, rfl⟩
      exact ⟨(), scalars, rfl⟩
  · simp only [ne_eq, matching, not_false_eq_true, if_true, false_and, iff_false]
    exact nofun

/-- A token that is a primary by itself is read alone. -/
theorem read_atom (leaf : Atom) {token : Token} (spells : token.lexeme = leaf.lexeme)
    (after : List Token) :
    read finish .primary (token :: after) = .ok (leaf.expression, after) := by
  cases leaf <;> simp only [read, Expression.parsePrimary, spells, Atom.lexeme] <;> rfl

/-- A parenthesis opens a list, whose items are joined. -/
theorem read_group {opening : Token} (opens : opening.lexeme = .leftParen) {whole : Expression}
    {after rest : List Token} :
    read finish .primary (opening :: after) = .ok (whole, rest) ↔
      ∃ items closing, readItems finish after = .ok (items, closing :: rest) ∧
        closing.lexeme = .rightParen ∧ items.join = whole := by
  rw [read]
  simp only [Expression.parsePrimary, opens, readItems, bare_eq_ok_iff, bind_eq_ok_iff,
    Prod.exists, Subtype.exists, expect_eq_ok_iff, kind_eq_rightParen_iff]
  constructor
  · rintro ⟨_, items, _, fewer, ran, closing, rest, _, ⟨closes, rfl⟩, finished⟩
    cases finished
    exact ⟨items, closing, ⟨fewer, ran⟩, closes, rfl⟩
  · rintro ⟨items, closing, ⟨fewer, ran⟩, closes, rfl⟩
    have bound : rest.length < (opening :: after).length := by simp at fewer ⊢; omega
    exact ⟨bound, items, closing :: rest, fewer, ran, closing, rest, by simp, ⟨closes, rfl⟩, rfl⟩

/-- A function is followed by the list of its arguments in parentheses. -/
theorem read_call {function : Builtin} {name : Token} (names : name.lexeme = .function function)
    {whole : Expression} {after rest : List Token} :
    read finish .primary (name :: after) = .ok (whole, rest) ↔
      ∃ opening inner items closing, after = opening :: inner ∧ opening.lexeme = .leftParen ∧
        readItems finish inner = .ok (items, closing :: rest) ∧ closing.lexeme = .rightParen ∧
        items.count = function.arity ∧
        (∀ item ∈ items.head :: items.tail, item.expression.width = 1) ∧
        .call function items.join = whole := by
  rw [read]
  simp only [Expression.parsePrimary, names, readItems, bare_eq_ok_iff, bind_eq_ok_iff,
    Prod.exists, Subtype.exists, expect_eq_ok_iff, kind_eq_leftParen_iff, kind_eq_rightParen_iff,
    makeCall_eq_ok_iff]
  constructor
  · rintro ⟨_, opening, inner, _, ⟨opens, rfl⟩, items, _, fewer, ran, closing, rest, _,
      ⟨closes, rfl⟩, _, ⟨matching, scalars, rfl⟩, finished⟩
    cases finished
    exact ⟨opening, inner, items, closing, rfl, opens, ⟨fewer, ran⟩, closes, matching, scalars, rfl⟩
  · rintro ⟨opening, inner, items, closing, rfl, opens, ⟨fewer, ran⟩, closes, matching, scalars,
      rfl⟩
    have bound : rest.length < (name :: opening :: inner).length := by simp at fewer ⊢; omega
    exact ⟨bound, opening, inner, by simp, ⟨opens, rfl⟩, items, closing :: rest, fewer, ran,
      closing, rest, by simp, ⟨closes, rfl⟩, _, ⟨matching, scalars, rfl⟩, rfl⟩

/-- A primary starts with an atom, a parenthesis or a function. -/
theorem primary_starts {tokens rest : List Token} {whole : Expression}
    (ran : read finish .primary tokens = .ok (whole, rest)) :
    ∃ token after, tokens = token :: after ∧
      ((∃ leaf : Atom, token.lexeme = leaf.lexeme) ∨ token.lexeme = .leftParen ∨
        ∃ function, token.lexeme = .function function) := by
  cases tokens with
  | nil =>
      rw [read, Expression.parsePrimary] at ran
      cases ran
  | cons token after =>
      rw [read, Expression.parsePrimary] at ran
      refine ⟨token, after, rfl, ?_⟩
      split at ran
      case h_1 value found => exact .inl ⟨.number value, found⟩
      case h_2 value found => exact .inl ⟨.constant value, found⟩
      case h_3 named found => exact .inl ⟨.cell named, found⟩
      case h_4 declared found => exact .inl ⟨.argument declared, found⟩
      case h_5 function found => exact .inr (.inr ⟨function, found⟩)
      case h_6 found => exact .inr (.inl found)
      case h_7 => cases ran

/-- A list is an item and the items behind it. -/
theorem readItems_eq_ok_iff {tokens rest : List Token} {items : Items} :
    readItems finish tokens = .ok (items, rest) ↔ ∃ left middle tail,
      read finish .expression tokens = .ok (left, middle) ∧
        readItemsTail finish middle = .ok (tail, rest) ∧
        (⟨⟨Token.current finish tokens, left⟩, tail⟩ : Items) = items := by
  rw [readItems]
  simp only [Expression.parseList]
  exact bare_sequence_eq_ok_iff _ (fun _ => Expression.parseListTail finish)
    (fun left tail => (⟨⟨Token.current finish tokens, left⟩, tail⟩ : Items)) fun _ => id

/-- A list ends where no comma follows. -/
theorem readItemsTail_of_stop {tokens : List Token}
    (stop : ∀ token ∈ tokens.head?, joins? token.lexeme ≠ some .list) :
    readItemsTail finish tokens = .ok ([], tokens) := by
  rw [readItemsTail]
  cases tokens with
  | nil => rw [Expression.parseListTail]; rfl
  | cons token after =>
      rw [Expression.parseListTail]
      have other : joins? token.lexeme ≠ some .list := stop token rfl
      split
      case h_1 found => rw [found] at other; exact absurd rfl other
      case h_2 => rfl

/-- A comma is followed by an item and the items behind it. -/
theorem readItemsTail_of_comma {token : Token} (spells : token.lexeme = .comma)
    {after rest : List Token} {items : List Item} :
    readItemsTail finish (token :: after) = .ok (items, rest) ↔ ∃ left middle tail,
      read finish .expression after = .ok (left, middle) ∧
        readItemsTail finish middle = .ok (tail, rest) ∧
        (⟨Token.current finish after, left⟩ : Item) :: tail = items := by
  have shorter : ∀ rest : List Token, rest.length < after.length →
      rest.length ≤ (token :: after).length := fun _ fewer => by simp; omega
  rw [readItemsTail]
  simp only [Expression.parseListTail, spells]
  exact bare_sequence_eq_ok_iff _ (fun _ => Expression.parseListTail finish)
    (fun left tail => (⟨Token.current finish after, left⟩ : Item) :: tail) shorter

/-- A formula is an expression with nothing behind it. -/
theorem parse_eq_ok_iff {tokens : List Token} {whole : Expression} :
    Expression.parse finish tokens = .ok whole ↔
      read finish .expression tokens = .ok (whole, []) := by
  rw [read, bare_eq_ok_iff]
  simp only [Expression.parse, bind_eq_ok_iff, Prod.exists, Subtype.exists]
  constructor
  · rintro ⟨found, rest, fewer, ran, finished⟩
    cases rest with
    | nil =>
        cases finished
        exact ⟨fewer, ran⟩
    | cons token after => cases finished
  · rintro ⟨fewer, ran⟩
    exact ⟨whole, [], fewer, ran, rfl⟩

end Reading

end Formulary.Grammar
