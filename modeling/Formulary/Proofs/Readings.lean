import Formulary.Proofs.Origins
import Formulary.Proofs.Replaying
import Formulary.Proofs.Spelling

/-!
# Formulas read back

The text of a compiled program is read again as a formula with the same code. What is read at a
place is known by its `Reading`: the steps, the width and the marks that a derivation synthesizes.
`ReadsBefore` means that a text has a derivation with a reading, whatever its tokens are as long as
they say what the text spells, before texts of a kind; mostly it stands where a word may end, which
is `ReadsAs`. There is a lemma about it for each way in which the text of a formula is put together,
and so each entry of a replay reads as its part of the formula.
-/

namespace Formulary

open Grammar (Level Derivation Sign Prefix Atom)
open Lexer (Spells Ends Spaced)

/-! ## Readings -/

/-- What a derivation synthesizes. -/
@[ext] structure Reading where
  steps : List Step
  width : Positive
  isBoolean : Bool
  isComplex : Bool

namespace Reading

/-- What a sign makes of the readings of its operands. -/
def chain {level : Level} (sign : Sign level) (left right : Reading) : Reading where
  steps := left.steps ++ right.steps ++ sign.steps left.width right.width
  width := sign.width left.width right.width
  isBoolean := sign.isBoolean
  isComplex := !sign.isBoolean && (left.isComplex || right.isComplex)

/-- What a sign makes of the reading of the operand behind it. -/
def signed {level : Level} (sign : Prefix level) (operand : Reading) : Reading :=
  match sign with
  | .not => ⟨operand.steps ++ [.operator .not], ⟨1, Nat.one_pos⟩, true, false⟩
  | .minus =>
    ⟨operand.steps ++ [.negate operand.width.val], operand.width, false, operand.isComplex⟩

/-- The reading of an atom. -/
def atom (leaf : Atom) : Reading := ⟨leaf.steps, leaf.width, false, leaf.isComplex⟩

/-- The reading of a call. -/
def call (function : Builtin) (operand : Reading) : Reading :=
  ⟨operand.steps ++ [Step.call function], ⟨1, Nat.one_pos⟩, false, operand.isComplex⟩

/-- The reading of a list of items. -/
def joined (first : Reading) (rest : List Reading) : Reading :=
  rest.foldl (chain .comma) first

theorem comma_assoc (first second third : Reading) :
    chain .comma (chain .comma first second) third =
      chain .comma first (chain .comma second third) := by
  simp [chain, Sign.steps, Sign.width, Sign.isBoolean, Nat.add_assoc, Bool.or_assoc]

theorem comma_joined (first second : Reading) (rest : List Reading) :
    chain .comma first (joined second rest) = joined (chain .comma first second) rest := by
  induction rest generalizing second with
  | nil => rfl
  | cons third rest inductionHypothesis =>
      simp only [joined, List.foldl_cons] at inductionHypothesis ⊢
      rw [inductionHypothesis, comma_assoc]

/-- Two lists of items one behind the other read as both of them joined. -/
theorem joined_append (first second : Reading) (rest more : List Reading) :
    joined first (rest ++ second :: more) =
      chain .comma (joined first rest) (joined second more) := by
  rw [comma_joined, joined, List.foldl_append]
  rfl

end Reading

/-- What a derivation synthesizes, as one reading. -/
def Grammar.Derivation.reading {level : Level} (derivation : Derivation level) : Reading :=
  ⟨derivation.steps, derivation.width, derivation.isBoolean, derivation.isComplex⟩

/-! ## Texts that are read at a level -/

section Levels

variable (scope : Scope)

/-- Whether a text is read at a level, with a reading, if what follows the text is of a kind. -/
def ReadsBefore (follows : List Char → Prop) (level : Level) (text : String) (reading : Reading) :
    Prop :=
  ∃ lexemes, Spells scope follows text.toList lexemes ∧
    ∀ tokens : List Token, tokens.map Token.lexeme = lexemes →
      ∃ derivation : Derivation level, derivation.tokens = tokens ∧ derivation.Admissible ∧
        derivation.reading = reading

/-- Whether a text is read at a level, with a reading, where a word may end. -/
abbrev ReadsAs (level : Level) (text : String) (reading : Reading) : Prop :=
  ReadsBefore scope Ends level text reading

/-- Whether a text is read as a list of items, each with its reading. -/
def ReadsAsList (text : String) (first : Reading) (rest : List Reading) : Prop :=
  ∃ lexemes, Spells scope Ends text.toList lexemes ∧
    ∀ tokens : List Token, tokens.map Token.lexeme = lexemes →
      ∃ derivation : Derivation .list, derivation.tokens = tokens ∧ derivation.Admissible ∧
        derivation.reading = .joined first rest ∧
        derivation.operandWidths = (first :: rest).map fun reading => reading.width.val

end Levels

namespace ReadsBefore

variable {scope : Scope} {follows further : List Char → Prop} {level : Level} {text : String}
  {reading : Reading}

theorem weaken (reads : ReadsBefore scope follows level text reading)
    (implies : ∀ rest, further rest → follows rest) :
    ReadsBefore scope further level text reading := by
  obtain ⟨lexemes, spells, derives⟩ := reads
  exact ⟨lexemes, spells.weaken implies, derives⟩

/-- An atom is read from the text that spells it. -/
theorem atom (leaf : Atom) (spells : Spells scope follows text.toList [leaf.lexeme]) :
    ReadsBefore scope follows .primary text (.atom leaf) := by
  refine ⟨_, spells, fun tokens said => ?_⟩
  obtain ⟨token, rfl⟩ := List.length_eq_one_iff.mp (by simpa using congrArg List.length said)
  exact ⟨.atom leaf token (List.singleton_inj.mp said), rfl, trivial, rfl⟩

/-- What is read at the inner level is read at the level itself. -/
theorem pass (below : level ≠ .primary)
    (reads : ReadsBefore scope follows level.inner text reading) :
    ReadsBefore scope follows level text reading := by
  obtain ⟨lexemes, spells, derives⟩ := reads
  refine ⟨lexemes, spells, fun tokens said => ?_⟩
  obtain ⟨derivation, yields, admissible, rfl⟩ := derives tokens said
  exact ⟨.pass below derivation, yields, admissible, rfl⟩

/-- Between two levels there is the inner level of the looser one. -/
theorem rank_inner_le {outer : Level} (looser : outer.rank ≤ level.rank) (other : outer ≠ level) :
    outer ≠ .primary ∧ outer.inner.rank ≤ level.rank := by
  revert looser other
  cases outer <;> cases level <;> decide

/-- What is read at a level is read at every level that binds less tightly. -/
theorem loosen (reads : ReadsBefore scope follows level text reading) (outer : Level)
    (looser : outer.rank ≤ level.rank) : ReadsBefore scope follows outer text reading := by
  by_cases same : outer = level
  · exact same ▸ reads
  · obtain ⟨below, inside⟩ := rank_inner_le looser same
    have tighter := Level.rank_inner below
    exact pass below (reads.loosen outer.inner inside)
  termination_by level.rank - outer.rank
  decreasing_by omega

/-- A primary is read at every level. -/
theorem lift (reads : ReadsBefore scope follows .primary text reading) (level : Level) :
    ReadsBefore scope follows level text reading :=
  reads.loosen level (by cases level <;> decide)

end ReadsBefore

/-- The text of a sign between operands. -/
def Grammar.Sign.text {level : Level} : Sign level → String
  | comma => ","
  | logical operator => operator.opcode.text
  | comparison operator => operator.opcode.text
  | sum .plus => "+"
  | sum .minus => "-"
  | star => "*"
  | slash => "/"

/-- A sign spells its lexeme before a space. -/
theorem Lexer.spells_sign {scope : Scope} {level : Level} (sign : Sign level) :
    Spells scope Spaced sign.text.toList [sign.lexeme] := by
  cases sign with
  | comma => exact Lexer.spells_comma.weaken fun _ _ => trivial
  | logical operator => exact (Lexer.spells_logical operator).weaken fun _ => Spaced.ends
  | comparison operator => exact Lexer.spells_comparison operator
  | sum sign =>
      cases sign with
      | plus => exact Lexer.spells_symbol (by decide) fun _ _ => rfl
      | minus => exact Lexer.spells_minus.weaken fun _ _ => trivial
  | star => exact Lexer.spells_symbol (by decide) fun _ _ => rfl
  | slash => exact Lexer.spells_symbol (by decide) fun _ _ => rfl

/-- A sign with spaces around it spells its lexeme. -/
theorem Lexer.spells_spaced {scope : Scope} {level : Level} (sign : Sign level) :
    Spells scope (fun _ => True) (" " ++ sign.text ++ " ").toList [sign.lexeme] := by
  have behind : Spells scope (fun _ => True) _ _ :=
    (Lexer.spells_sign sign).append Lexer.spells_space fun rest _ => ⟨_, rfl⟩
  simpa [String.toList_append] using Lexer.spells_space.before behind

namespace ReadsBefore

variable {scope : Scope} {follows further : List Char → Prop} {level : Level}
  {text between other : String} {left right : Reading}

/-- Two operands with a text between them that spells a sign. -/
theorem join (sign : Sign level) (readsLeft : ReadsBefore scope further level text left)
    (spellsSign : Spells scope (fun _ => True) between.toList [sign.lexeme])
    (readsRight : ReadsBefore scope follows level.inner other right)
    (fits : ∀ rest, further (between.toList ++ rest))
    (accepts : sign.Accepts left.width right.width) :
    ReadsBefore scope follows level (text ++ between ++ other) (.chain sign left right) := by
  obtain ⟨lexemes, spells, derives⟩ := readsLeft
  obtain ⟨others, spellsOther, derivesOther⟩ := readsRight
  refine ⟨lexemes ++ ([sign.lexeme] ++ others), ?_, fun tokens said => ?_⟩
  · have whole := spells.append (spellsSign.before spellsOther) fun rest _ => by
      rw [List.append_assoc]
      exact fits _
    simpa [String.toList_append] using whole
  · obtain ⟨first, behind, rfl, saidFirst, saidBehind⟩ := List.map_eq_append_iff.mp said
    obtain ⟨token, second, rfl, spellsToken, saidSecond⟩ := List.map_eq_cons_iff.mp saidBehind
    obtain ⟨leftDerivation, rfl, leftAdmissible, rfl⟩ := derives first saidFirst
    obtain ⟨rightDerivation, rfl, rightAdmissible, rfl⟩ := derivesOther second saidSecond
    exact ⟨.chain leftDerivation sign token spellsToken rightDerivation, rfl,
      ⟨leftAdmissible, rightAdmissible, accepts⟩, rfl⟩

/-- Two operands with a sign between them, and spaces around the sign. -/
theorem chain (sign : Sign level) (readsLeft : ReadsAs scope level text left)
    (readsRight : ReadsBefore scope follows level.inner other right)
    (accepts : sign.Accepts left.width right.width) :
    ReadsBefore scope follows level (text ++ (" " ++ sign.text ++ " ") ++ other)
      (.chain sign left right) := by
  refine readsLeft.join sign (Lexer.spells_spaced sign) readsRight (fun rest => ?_) accepts
  rw [String.toList_append, String.toList_append, List.append_assoc, List.append_assoc]
  exact Spaced.ends ⟨_, rfl⟩

/-- A sign before an operand. -/
theorem signed (sign : Prefix level) {before : String}
    (reads : ReadsBefore scope follows level text left)
    (spells : Spells scope (fun _ => True) before.toList [sign.lexeme])
    (accepts : sign.Accepts left.width.val) :
    ReadsBefore scope follows level (before ++ text) (.signed sign left) := by
  obtain ⟨lexemes, spellsText, derives⟩ := reads
  refine ⟨[sign.lexeme] ++ lexemes, ?_, fun tokens said => ?_⟩
  · simpa [String.toList_append] using spells.before spellsText
  · obtain ⟨token, behind, rfl, named, saidBehind⟩ := List.map_eq_cons_iff.mp said
    obtain ⟨operand, rfl, admissible, rfl⟩ := derives behind saidBehind
    refine ⟨.signed sign token named operand, rfl, ?_, ?_⟩
    · cases sign with
      | not => exact ⟨admissible, accepts⟩
      | minus => exact admissible
    · cases sign <;> rfl

end ReadsBefore

namespace ReadsAs

variable {scope : Scope} {text : String}

theorem ends_closing (rest : List Char) : Ends ([')'] ++ rest) :=
  show ')' ∈ Lexer.closers by decide

/-- Tokens whose lexemes end in one end in a token of it. -/
theorem exists_closing {tokens : List Token} {lexemes : List Lexeme} {last : Lexeme}
    (said : tokens.map Token.lexeme = lexemes ++ [last]) :
    ∃ inside closing, tokens = inside ++ [closing] ∧ inside.map Token.lexeme = lexemes ∧
      closing.lexeme = last := by
  obtain ⟨inside, behind, rfl, saidInside, saidLast⟩ := List.map_eq_append_iff.mp said
  obtain ⟨closing, none, rfl, closes, saidNone⟩ := List.map_eq_cons_iff.mp saidLast
  obtain rfl := List.map_eq_nil_iff.mp saidNone
  exact ⟨inside, closing, rfl, saidInside, closes⟩

/-- A list in parentheses. -/
theorem group {first : Reading} {rest : List Reading}
    (reads : ReadsAsList scope text first rest) :
    ReadsAs scope .primary ("(" ++ text ++ ")") (.joined first rest) := by
  obtain ⟨lexemes, spells, derives⟩ := reads
  refine ⟨[Lexeme.leftParen] ++ (lexemes ++ [Lexeme.rightParen]), ?_, fun tokens said => ?_⟩
  · have closing : Spells scope Ends [')'] [.rightParen] :=
      Lexer.spells_rightParen.weaken fun _ _ => trivial
    have whole :=
      Lexer.spells_leftParen.before (spells.append closing fun rest _ => ends_closing rest)
    simpa [String.toList_append] using whole
  · obtain ⟨opening, behind, rfl, opens, saidBehind⟩ := List.map_eq_cons_iff.mp said
    obtain ⟨inside, closing, rfl, saidInside, closes⟩ := exists_closing saidBehind
    obtain ⟨items, rfl, admissible, reading, _⟩ := derives inside saidInside
    exact ⟨.group opening closing opens closes items, rfl, admissible, reading⟩

/-- A function before a list of as many scalars as it takes. -/
theorem call {function : Builtin} {first : Reading} {rest : List Reading}
    (resolved : scope.resolve function.name = some (.function function))
    (reads : ReadsAsList scope text first rest) (arity : rest.length + 1 = function.arity)
    (scalars : ∀ reading ∈ first :: rest, reading.width.val = 1) :
    ReadsAs scope .primary (function.name ++ "(" ++ text ++ ")")
      (.call function (.joined first rest)) := by
  obtain ⟨lexemes, spells, derives⟩ := reads
  refine ⟨[Lexeme.function function] ++ ([Lexeme.leftParen] ++ (lexemes ++ [Lexeme.rightParen])),
    ?_, fun tokens said => ?_⟩
  · have closing : Spells scope Ends [')'] [.rightParen] :=
      Lexer.spells_rightParen.weaken fun _ _ => trivial
    have behind :=
      Lexer.spells_leftParen.before (spells.append closing fun rest _ => ends_closing rest)
    have name := Lexer.spells_word (Lexer.isWord_builtin function) resolved
    have whole := name.append behind fun rest _ => show '(' ∈ Lexer.closers by decide
    simpa [String.toList_append] using whole
  · obtain ⟨name, afterName, rfl, names, saidAfter⟩ := List.map_eq_cons_iff.mp said
    obtain ⟨opening, behind, rfl, opens, saidBehind⟩ := List.map_eq_cons_iff.mp saidAfter
    obtain ⟨inside, closing, rfl, saidInside, closes⟩ := exists_closing saidBehind
    obtain ⟨items, rfl, admissible, reading, widths⟩ := derives inside saidInside
    refine ⟨.call function name opening closing names opens closes items, rfl,
      ⟨admissible, by simpa [widths] using arity, ?_⟩, ?_⟩
    · rw [widths]
      exact List.forall_mem_map.mpr scalars
    · rw [← reading]
      rfl

end ReadsAs

namespace ReadsAsList

variable {scope : Scope} {text other : String} {first item : Reading} {rest : List Reading}

theorem single (reads : ReadsAs scope .expression text first) :
    ReadsAsList scope text first [] := by
  obtain ⟨lexemes, spells, derives⟩ := reads
  refine ⟨lexemes, spells, fun tokens said => ?_⟩
  obtain ⟨derivation, yields, admissible, rfl⟩ := derives tokens said
  exact ⟨.pass nofun derivation, yields, admissible, rfl, rfl⟩

/-- One more item behind a list. -/
theorem snoc (reads : ReadsAsList scope text first rest)
    (readsItem : ReadsAs scope .expression other item) :
    ReadsAsList scope (text ++ ", " ++ other) first (rest ++ [item]) := by
  obtain ⟨lexemes, spells, derives⟩ := reads
  obtain ⟨others, spellsOther, derivesOther⟩ := readsItem
  refine ⟨lexemes ++ ([Lexeme.comma] ++ ([] ++ others)), ?_, fun tokens said => ?_⟩
  · have behind := Lexer.spells_comma.before (Lexer.spells_space.before spellsOther)
    have whole := spells.append behind fun rest _ => show ',' ∈ Lexer.closers by decide
    simpa [String.toList_append] using whole
  · obtain ⟨before, behind, rfl, saidBefore, saidBehind⟩ := List.map_eq_append_iff.mp said
    obtain ⟨token, last, rfl, named, saidLast⟩ := List.map_eq_cons_iff.mp saidBehind
    obtain ⟨items, rfl, admissible, reading, widths⟩ := derives before saidBefore
    obtain ⟨derivation, rfl, itemAdmissible, rfl⟩ := derivesOther last saidLast
    refine ⟨.chain items .comma token named derivation, rfl,
      ⟨admissible, itemAdmissible, trivial⟩, ?_, ?_⟩
    · rw [Reading.joined_append, ← reading]
      rfl
    · show items.operandWidths ++ [derivation.width.val] = _
      simp [widths, Derivation.reading]

/-- The first two items of a text can be put together first. -/
theorem intercalate_cons (first second : String) (rest : List String) :
    ", ".intercalate (first :: second :: rest) =
      ", ".intercalate ((first ++ ", " ++ second) :: rest) := by
  cases rest with
  | nil => simp [String.intercalate_cons_cons]
  | cons third more => simp [String.intercalate_cons_cons, String.append_assoc]

/-- Items with commas between them are read as a list. -/
theorem intercalate {texts : List String} {items : List Reading}
    (readsFirst : ReadsAs scope .expression text first)
    (readsRest : List.Forall₂ (ReadsAs scope .expression) texts items) :
    ReadsAsList scope (", ".intercalate (text :: texts)) first items := by
  -- A list grows at its end, so the items that were read already are kept.
  suffices later : ∀ {text : String} {done : List Reading}, ReadsAsList scope text first done →
      ReadsAsList scope (", ".intercalate (text :: texts)) first (done ++ items) from
    later (single readsFirst)
  clear readsFirst
  induction readsRest with
  | nil => intro text done reads; simpa using reads
  | cons readsItem _ inductionHypothesis =>
      intro text done reads
      rw [intercalate_cons]
      simpa using inductionHypothesis (reads.snoc readsItem)

end ReadsAsList

end Formulary
