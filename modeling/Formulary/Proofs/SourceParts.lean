import Formulary.Proofs.ReadBack
import Formulary.Proofs.Separation

/-!
# Sources as parts of sources

A source that is accepted spells its tokens wherever a word may end behind it: nothing that closes
it is taken for more of its last lexeme. And since a derivation asks of its tokens only what they
say, a source is read in the midst of another one as it is read alone. So the formula of a source in
parentheses has the expression of the source for its part, whatever stands around them.
-/

namespace Formulary

open Grammar (Level Derivation Sign Prefix)
open Lexer (Spells Scanned Severs Ends)

/-! ## Scans in the midst of a source -/

namespace Lexer

variable {scope : Scope}

/-- What a word ends before severs what stands before it. -/
theorem Ends.severs {next : Char} {more : List Char} (ends : Ends (next :: more)) :
    Severs (next :: more) := by
  refine ⟨ends.halts, next, more, rfl, ?_⟩
  rintro rfl
  exact absurd (show '=' ∈ closers from ends) (by decide)

/-- A text that is scanned from its start to its end spells its tokens. -/
theorem spells_of_scan {text : List Char} {tokens : List Token}
    (scanned : scan scope 0 text = .ok tokens) :
    Spells scope Ends text (tokens.map Token.lexeme) := by
  intro position rest later ends scannedLater
  have moved : scan scope position text = .ok (tokens.map (Token.shift position)) := by
    have shifted := @scan_shift scope position 0 text
    rwa [Nat.zero_add, scanned] at shifted
  cases rest with
  | nil =>
      cases scannedLater
      refine ⟨tokens.map (Token.shift position), by simp [Token.shift, Function.comp_def], ?_⟩
      rw [List.append_nil, List.append_nil]
      exact scan_eq_ok_iff.mp moved
  | cons next more =>
      refine ⟨(tokens.map (Token.shift position)).map (Token.cut (position + text.length)),
        by simp [Token.shift, Token.cut, Function.comp_def], scan_eq_ok_iff.mp ?_⟩
      rw [scan_append position text ends.severs, scanBefore, moved,
        scan_eq_ok_iff.mpr scannedLater]
      rfl

end Lexer

/-! ## Derivations of tokens that say the same -/

namespace Grammar.Derivation

/-- A derivation of other tokens with the same expression. -/
structure Respells {level : Level} (derivation other : Derivation level) (tokens : List Token) :
    Prop where
  tokens_eq : other.tokens = tokens
  tree_eq : other.tree = derivation.tree
  operandWidths_eq : other.operandWidths = derivation.operandWidths
  admissible : derivation.Admissible → other.Admissible

section Respells

variable {level : Level} {tokens others : List Token} {token again opening closing otherOpening
  otherClosing : Token}

theorem Respells.width_eq {derivation other : Derivation level}
    (respells : derivation.Respells other tokens) : other.width = derivation.width := by
  rw [← positiveWidth_tree, respells.tree_eq, positiveWidth_tree]

theorem Respells.pass {operand other : Derivation level.inner}
    (respells : operand.Respells other tokens) (below : level ≠ .primary) :
    (Derivation.pass below operand).Respells (.pass below other) tokens where
  tokens_eq := respells.tokens_eq
  tree_eq := respells.tree_eq
  operandWidths_eq := by simp only [operandWidths, respells.width_eq]
  admissible := respells.admissible

theorem Respells.chain {left otherLeft : Derivation level}
    {right otherRight : Derivation level.inner} (respellsLeft : left.Respells otherLeft tokens)
    (respellsRight : right.Respells otherRight others) {sign : Sign level}
    (spells : token.lexeme = sign.lexeme) (spellsAgain : again.lexeme = sign.lexeme) :
    (Derivation.chain left sign token spells right).Respells
      (.chain otherLeft sign again spellsAgain otherRight) (tokens ++ again :: others) where
  tokens_eq := by simp only [Derivation.tokens, respellsLeft.tokens_eq, respellsRight.tokens_eq]
  tree_eq := by simp only [tree, respellsLeft.tree_eq, respellsRight.tree_eq]
  operandWidths_eq := by
    simp only [operandWidths, respellsLeft.operandWidths_eq, respellsRight.width_eq]
  admissible := by
    rintro ⟨leftAdmissible, rightAdmissible, accepts⟩
    rw [← respellsLeft.width_eq, ← respellsRight.width_eq] at accepts
    exact ⟨respellsLeft.admissible leftAdmissible, respellsRight.admissible rightAdmissible,
      accepts⟩

theorem Respells.signed {operand other : Derivation level}
    (respells : operand.Respells other tokens) {sign : Prefix level}
    (spells : token.lexeme = sign.lexeme) (spellsAgain : again.lexeme = sign.lexeme) :
    (Derivation.signed sign token spells operand).Respells (.signed sign again spellsAgain other)
      (again :: tokens) where
  tokens_eq := by simp only [Derivation.tokens, respells.tokens_eq]
  tree_eq := by simp only [tree, respells.tree_eq]
  operandWidths_eq := rfl
  admissible := by
    cases sign with
    | not =>
        rintro ⟨admissible, scalar⟩
        rw [← respells.width_eq] at scalar
        exact ⟨respells.admissible admissible, scalar⟩
    | minus => exact respells.admissible

theorem Respells.group {items other : Derivation .list} (respells : items.Respells other tokens)
    (opens : opening.lexeme = .leftParen) (closes : closing.lexeme = .rightParen)
    (opensAgain : otherOpening.lexeme = .leftParen)
    (closesAgain : otherClosing.lexeme = .rightParen) :
    (Derivation.group opening closing opens closes items).Respells
      (.group otherOpening otherClosing opensAgain closesAgain other)
      (otherOpening :: (tokens ++ [otherClosing])) where
  tokens_eq := by simp only [Derivation.tokens, respells.tokens_eq]
  tree_eq := respells.tree_eq
  operandWidths_eq := rfl
  admissible := respells.admissible

theorem Respells.call {items other : Derivation .list} (respells : items.Respells other tokens)
    {function : Builtin} (names : token.lexeme = .function function)
    (opens : opening.lexeme = .leftParen) (closes : closing.lexeme = .rightParen)
    (namesAgain : again.lexeme = .function function)
    (opensAgain : otherOpening.lexeme = .leftParen)
    (closesAgain : otherClosing.lexeme = .rightParen) :
    (Derivation.call function token opening closing names opens closes items).Respells
      (.call function again otherOpening otherClosing namesAgain opensAgain closesAgain other)
      (again :: otherOpening :: (tokens ++ [otherClosing])) where
  tokens_eq := by simp only [Derivation.tokens, respells.tokens_eq]
  tree_eq := by simp only [tree, respells.tree_eq]
  operandWidths_eq := rfl
  admissible := by
    rintro ⟨admissible, matching, scalars⟩
    rw [← respells.operandWidths_eq] at matching scalars
    exact ⟨respells.admissible admissible, matching, scalars⟩

end Respells

/-- Tokens that say the same have the same derivations. -/
theorem exists_respells {level : Level} (derivation : Derivation level) {tokens : List Token}
    (said : tokens.map Token.lexeme = derivation.tokens.map Token.lexeme) :
    ∃ other, derivation.Respells other tokens := by
  induction derivation generalizing tokens with
  | pass below operand inductionHypothesis =>
      obtain ⟨other, respells⟩ := inductionHypothesis said
      exact ⟨_, respells.pass below⟩
  | chain left sign token spells right leftHypothesis rightHypothesis =>
      obtain ⟨first, behind, rfl, saidFirst, saidBehind⟩ :=
        List.map_eq_append_iff.mp (said.trans List.map_append)
      obtain ⟨again, second, rfl, same, saidSecond⟩ := List.map_eq_cons_iff.mp saidBehind
      obtain ⟨otherLeft, respellsLeft⟩ := leftHypothesis saidFirst
      obtain ⟨otherRight, respellsRight⟩ := rightHypothesis saidSecond
      exact ⟨_, respellsLeft.chain respellsRight spells (same.trans spells)⟩
  | signed sign token spells operand inductionHypothesis =>
      obtain ⟨again, behind, rfl, same, saidBehind⟩ := List.map_eq_cons_iff.mp said
      obtain ⟨other, respells⟩ := inductionHypothesis saidBehind
      exact ⟨_, respells.signed spells (same.trans spells)⟩
  | atom leaf token spells =>
      obtain ⟨again, rest, rfl, same, none⟩ := List.map_eq_cons_iff.mp said
      obtain rfl := List.map_eq_nil_iff.mp none
      exact ⟨.atom leaf again (same.trans spells), rfl, rfl, rfl, id⟩
  | group opening closing opens closes items inductionHypothesis =>
      obtain ⟨first, behind, rfl, same, saidBehind⟩ := List.map_eq_cons_iff.mp said
      obtain ⟨inside, last, rfl, saidInside, sameLast⟩ :=
        ReadsAs.exists_closing (saidBehind.trans List.map_append)
      obtain ⟨other, respells⟩ := inductionHypothesis saidInside
      exact ⟨_, respells.group opens closes (same.trans opens) (sameLast.trans closes)⟩
  | call function name opening closing names opens closes items inductionHypothesis =>
      obtain ⟨named, afterName, rfl, sameName, saidAfter⟩ := List.map_eq_cons_iff.mp said
      obtain ⟨first, behind, rfl, same, saidBehind⟩ := List.map_eq_cons_iff.mp saidAfter
      obtain ⟨inside, last, rfl, saidInside, sameLast⟩ :=
        ReadsAs.exists_closing (saidBehind.trans List.map_append)
      obtain ⟨other, respells⟩ := inductionHypothesis saidInside
      exact ⟨_, respells.call names opens closes (sameName.trans names) (same.trans opens)
        (sameLast.trans closes)⟩

/-- The reading of a derivation is that of its expression. -/
theorem reading_tree {level : Level} (derivation : Derivation level) :
    derivation.tree.reading = derivation.reading := by
  ext1
  · exact derivation.code_tree
  · exact derivation.positiveWidth_tree
  · exact derivation.isBoolean_tree
  · exact derivation.isComplex_tree

end Grammar.Derivation

/-! ## Sources that are read -/

/-- A text that is read as a formula is read as it wherever a word may end behind it. -/
theorem ReadsAs.of_read {scope : Scope} {text : String} {formula : Expression}
    (read : readExpression scope text = .ok formula) :
    ReadsAs scope .expression text formula.reading := by
  obtain ⟨tokens, scanned, parsed⟩ := Outcome.bind_eq_ok_iff.mp read
  obtain ⟨derivation, explains, rfl⟩ := Grammar.exists_explains parsed
  refine ⟨_, Lexer.spells_of_scan scanned, fun others said => ?_⟩
  rw [← explains.tokens_eq] at said
  obtain ⟨other, respells⟩ := derivation.exists_respells said
  refine ⟨other, respells.tokens_eq, respells.admissible explains.admissible, ?_⟩
  rw [← other.reading_tree, respells.tree_eq]

/-! ## Scalars -/

/-- Whether a text is read at a level as an expression that is a scalar. -/
structure ReadsScalar (scope : Scope) (level : Level) (text : String) (expression : Expression) :
    Prop where
  reads : ReadsAs scope level text expression.reading
  typed : expression.WellTyped
  width : expression.width = 1

namespace ReadsScalar

variable {scope : Scope} {level : Level} {text other : String}
  {expression left right : Expression}

/-- A source that compiles to a scalar program is read as a scalar, whose code the program is. -/
theorem of_compile {compiled : Compiled} (compiles : compile scope (.text text) = .ok compiled)
    (scalar : compiled.resultType.width = 1) :
    ∃ expression, ReadsScalar scope .expression text expression ∧
      compiled.program.steps = expression.code := by
  obtain ⟨_, formula, found, read, typed, steps, resultType⟩ := exists_formula compiles
  cases found
  rw [resultType] at scalar
  exact ⟨formula, ⟨.of_read read, typed, Int.ofNat_inj.mp scalar⟩, steps⟩

theorem loosen (reads : ReadsScalar scope level text expression) (outer : Level)
    (looser : outer.rank ≤ level.rank) : ReadsScalar scope outer text expression :=
  ⟨reads.reads.loosen outer looser, reads.typed, reads.width⟩

/-- A scalar in parentheses is the same scalar, and an operand of everything. -/
theorem parenthesized (reads : ReadsScalar scope level text expression) (noList : level ≠ .list)
    (outer : Level) : ReadsScalar scope outer ("(" ++ text ++ ")") expression :=
  ⟨(reads.reads.parenthesized noList).lift outer, reads.typed, reads.width⟩

/-- The opposite of a scalar. -/
theorem not (reads : ReadsScalar scope .negation text expression) :
    ReadsScalar scope .negation ("not " ++ text) expression.not := by
  have spells : Lexer.Spells scope (fun _ => True) "not ".toList [.not] :=
    Lexer.spells_not.append Lexer.spells_space fun _ _ => .head _
  exact ⟨.signed .not reads.reads spells reads.width, ⟨reads.typed, reads.width⟩, rfl⟩

/-- Two scalars with a sign between them that makes a truth value. -/
theorem join (sign : Sign level) (makesTruth : sign.isBoolean = true)
    (readsLeft : ReadsScalar scope level text left)
    (readsRight : ReadsScalar scope level.inner other right) :
    ReadsScalar scope level (text ++ (" " ++ sign.text ++ " ") ++ other)
      (sign.join left right) := by
  have accepts : sign.Accepts left.positiveWidth right.positiveWidth := by
    cases sign with
    | logical => exact ⟨readsLeft.width, readsRight.width⟩
    | comparison => exact ⟨readsLeft.width, readsRight.width⟩
    | _ => cases makesTruth
  refine ⟨.pair sign readsLeft.reads readsRight.reads accepts, ?_, ?_⟩
  · cases sign with
    | logical => exact ⟨readsLeft.typed, readsRight.typed, readsLeft.width, readsRight.width⟩
    | comparison => exact ⟨readsLeft.typed, readsRight.typed, readsLeft.width, readsRight.width⟩
    | _ => cases makesTruth
  · cases sign with
    | logical => rfl
    | comparison => rfl
    | _ => cases makesTruth

/-- A text that is read as a scalar compiles to its code. -/
theorem compiles (reads : ReadsScalar scope .expression text expression) :
    ∃ compiled, compile scope (.text text) = .ok compiled ∧
      compiled.program.steps = expression.code ∧
      compiled.resultType = ⟨1, expression.isBoolean, expression.isComplex⟩ := by
  obtain ⟨compiled, compiles, steps, resultType⟩ := reads.reads.compiles
  refine ⟨compiled, compiles, steps, resultType.trans ?_⟩
  simp only [Expression.reading, Expression.positiveWidth, reads.width, Int.natCast_one]

end ReadsScalar

end Formulary
