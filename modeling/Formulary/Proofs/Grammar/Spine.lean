import Formulary.Proofs.Grammar

/-!
# Spines of derivations

A derivation from a level with signs is a first operand followed by segments, each a sign with the
operand on its right. `spine_induction` is an induction on derivations that takes such a spine in
one step, from its first operand and those of its segments; a reader meets them in this order.

Where a derivation ends in a longer text is told by the token behind it: `Stops` says that it is no
sign of the level or of a tighter one.
-/

namespace Formulary.Grammar

/-- The place of a level in the order from the loosest to the tightest. -/
def Level.rank : Level → Nat
  | list => 0
  | expression => 1
  | negation => 2
  | comparison => 3
  | additive => 4
  | term => 5
  | unary => 6
  | primary => 7

/-- Whether operands are joined by signs at a level. -/
def Level.hasSigns : Level → Bool
  | negation => false
  | unary => false
  | primary => false
  | _ => true

/-- The level at which a lexeme joins operands. -/
def joins? : Lexeme → Option Level
  | .comma => some .list
  | .logical _ => some .expression
  | .comparison _ => some .comparison
  | .plus => some .additive
  | .minus => some .additive
  | .star => some .term
  | .slash => some .term
  | _ => none

/-- The level at which a lexeme stands before an operand. -/
def leads? : Lexeme → Option Level
  | .not => some .negation
  | .minus => some .unary
  | _ => none

/-- The next token does not go on with a derivation from a level. -/
def Stops (level : Level) (tokens : List Token) : Prop :=
  ∀ token ∈ tokens.head?, ∀ joined ∈ joins? token.lexeme, joined.rank < level.rank

/-! ## Levels and signs -/

theorem Level.rank_inner {level : Level} (below : level ≠ .primary) :
    level.rank < level.inner.rank := by
  cases level <;> first | exact absurd rfl below | decide

theorem Level.ne_primary_of_hasSigns {level : Level} (signs : level.hasSigns = true) :
    level ≠ .primary := by
  rintro rfl
  cases signs

theorem Sign.hasSigns {level : Level} (sign : Sign level) : level.hasSigns = true := by
  cases sign <;> rfl

theorem Prefix.hasSigns {level : Level} (sign : Prefix level) : level.hasSigns = false := by
  cases sign <;> rfl

theorem Sign.joins?_lexeme {level : Level} (sign : Sign level) :
    joins? sign.lexeme = some level := by
  cases sign with
  | sum sign => cases sign <;> rfl
  | _ => rfl

theorem Prefix.leads?_lexeme {level : Level} (sign : Prefix level) :
    leads? sign.lexeme = some level := by
  cases sign <;> rfl

theorem Sign.lexeme_injective {level : Level} {left right : Sign level}
    (same : left.lexeme = right.lexeme) : left = right := by
  cases left with
  | sum leftSign =>
      cases right with
      | sum rightSign => cases leftSign <;> cases rightSign <;> first | rfl | cases same
  | _ =>
      cases right <;> cases same
      rfl

theorem Prefix.eq {level : Level} (left right : Prefix level) : left = right := by
  cases left <;> cases right <;> rfl

theorem Atom.lexeme_injective {left right : Atom} (same : left.lexeme = right.lexeme) :
    left = right := by
  cases left <;> cases right <;> cases same <;> rfl

theorem Atom.lexeme_ne_leftParen (leaf : Atom) : leaf.lexeme ≠ .leftParen := by
  cases leaf <;> exact nofun

theorem Atom.lexeme_ne_function (leaf : Atom) (function : Builtin) :
    leaf.lexeme ≠ .function function := by
  cases leaf <;> exact nofun

theorem stops_nil (level : Level) : Stops level [] := by
  simp [Stops]

/-- A closing parenthesis stops every level. -/
theorem stops_closing {level : Level} {closing : Token} (closes : closing.lexeme = .rightParen)
    (rest : List Token) : Stops level (closing :: rest) := by
  simp [Stops, closes, joins?]

/-- What does not go on with a level does not go on with a tighter one. -/
theorem Stops.inner {level : Level} {tokens : List Token} (stops : Stops level tokens)
    (below : level ≠ .primary) : Stops level.inner tokens :=
  fun token next joined found =>
    Nat.lt_trans (stops token next joined found) (Level.rank_inner below)

/-- A sign of a level ends the operand on its left. -/
theorem Sign.stops_inner {level : Level} (sign : Sign level) {token : Token}
    (spells : token.lexeme = sign.lexeme) (rest : List Token) :
    Stops level.inner (token :: rest) := by
  simp only [Stops, List.head?_cons, Option.mem_some_iff, forall_eq', spells, sign.joins?_lexeme]
  exact Level.rank_inner (Level.ne_primary_of_hasSigns sign.hasSigns)

/-- A sign of a level goes on with it. -/
theorem Sign.not_stops {level : Level} (sign : Sign level) {token : Token}
    (spells : token.lexeme = sign.lexeme) (rest : List Token) : ¬Stops level (token :: rest) := by
  simp [Stops, spells, sign.joins?_lexeme]

/-! ## Segments -/

/-- A sign with the operand on its right. -/
structure Segment (level : Level) where
  sign : Sign level
  token : Token
  spells : token.lexeme = sign.lexeme
  operand : Derivation level.inner

/-- The tokens of a segment. -/
def Segment.tokens {level : Level} (segment : Segment level) : List Token :=
  segment.token :: segment.operand.tokens

/-- Neither the segments of a level nor what stops it go on with an operand. -/
theorem stops_segments {level : Level} (below : level ≠ .primary) (segments : List (Segment level))
    {rest : List Token} (stops : Stops level rest) :
    Stops level.inner (segments.flatMap Segment.tokens ++ rest) := by
  cases segments with
  | nil => exact stops.inner below
  | cons segment more => exact segment.sign.stops_inner segment.spells _

namespace Derivation

variable {level : Level}

/-- A derivation that goes on with one more segment. -/
def add (left : Derivation level) (segment : Segment level) : Derivation level :=
  .chain left segment.sign segment.token segment.spells segment.operand

/-- A derivation that goes on with some segments. -/
def extend (left : Derivation level) (segments : List (Segment level)) : Derivation level :=
  segments.foldl add left

@[simp] theorem extend_nil (left : Derivation level) : left.extend [] = left := rfl

@[simp] theorem extend_cons (left : Derivation level) (segment : Segment level)
    (rest : List (Segment level)) :
    left.extend (segment :: rest) = (left.add segment).extend rest := rfl

@[simp] theorem tokens_add (left : Derivation level) (segment : Segment level) :
    (left.add segment).tokens = left.tokens ++ segment.tokens := rfl

/-- Segments add their tokens behind those of the derivation. -/
theorem tokens_extend (left : Derivation level) (segments : List (Segment level)) :
    (left.extend segments).tokens = left.tokens ++ segments.flatMap Segment.tokens := by
  induction segments generalizing left with
  | nil => simp
  | cons segment rest inductionHypothesis => simp [inductionHypothesis]

/-- A derivation that is admissible after some segments was so before them. -/
theorem admissible_of_extend {left : Derivation level} {segments : List (Segment level)}
    (admissible : (left.extend segments).Admissible) : left.Admissible := by
  induction segments generalizing left with
  | nil => exact admissible
  | cons segment rest inductionHypothesis =>
      have reached : (left.add segment).Admissible := inductionHypothesis admissible
      exact reached.1

/-- The operands of the segments are admissible where the whole is. -/
theorem admissible_segments {left : Derivation level} {segments : List (Segment level)}
    (admissible : (left.extend segments).Admissible) :
    ∀ segment ∈ segments, segment.operand.Admissible := by
  induction segments generalizing left with
  | nil => simp
  | cons segment rest inductionHypothesis =>
      intro other member
      rcases List.mem_cons.mp member with rfl | later
      · have reached : (left.add other).Admissible := admissible_of_extend admissible
        exact reached.2.1
      · exact inductionHypothesis admissible other later

/-- An induction on derivations in which a first operand and the segments after it are one case. -/
theorem spine_induction {motive : {level : Level} → Derivation level → Prop}
    (spine : ∀ {level : Level} (_ : level.hasSigns = true) (below : level ≠ .primary)
      (first : Derivation level.inner) (segments : List (Segment level)), motive first →
      (∀ segment ∈ segments, motive segment.operand) →
      motive ((pass below first).extend segments))
    (pass : ∀ {level : Level} (_ : level.hasSigns = false) (below : level ≠ .primary)
      (operand : Derivation level.inner), motive operand → motive (pass below operand))
    (signed : ∀ {level : Level} (sign : Prefix level) (token : Token)
      (spells : token.lexeme = sign.lexeme) (operand : Derivation level), motive operand →
      motive (signed sign token spells operand))
    (atom : ∀ (leaf : Atom) (token : Token) (spells : token.lexeme = leaf.lexeme),
      motive (atom leaf token spells))
    (group : ∀ (opening closing : Token) (opens : opening.lexeme = .leftParen)
      (closes : closing.lexeme = .rightParen) (items : Derivation .list), motive items →
      motive (group opening closing opens closes items))
    (call : ∀ (function : Builtin) (name opening closing : Token)
      (names : name.lexeme = .function function) (opens : opening.lexeme = .leftParen)
      (closes : closing.lexeme = .rightParen) (items : Derivation .list), motive items →
      motive (call function name opening closing names opens closes items))
    {level : Level} (derivation : Derivation level) : motive derivation := by
  -- A chain has its spine from its left part, so that the induction carries the parts of a spine.
  have strong : ∀ {level : Level} (derivation : Derivation level), motive derivation ∧
      (level.hasSigns = true → ∃ below first segments,
        derivation = (Derivation.pass below first).extend segments ∧ motive first ∧
          ∀ segment ∈ segments, motive segment.operand) := by
    intro level derivation
    induction derivation with
    | @pass level below operand inductionHypothesis =>
        have spined : (Derivation.pass below operand) =
          (Derivation.pass below operand).extend [] := rfl
        refine ⟨?_, fun signs => ⟨below, operand, [], spined, inductionHypothesis.1, by simp⟩⟩
        cases signs : level.hasSigns with
        | true => exact spine signs below operand [] inductionHypothesis.1 (by simp)
        | false => exact pass signs below operand inductionHypothesis.1
    | chain left sign token spells right leftHypothesis rightHypothesis =>
        obtain ⟨below, first, segments, rfl, firstHolds, segmentsHold⟩ :=
          leftHypothesis.2 sign.hasSigns
        have held : ∀ segment ∈ segments ++ [⟨sign, token, spells, right⟩],
            motive segment.operand := by
          intro segment member
          rcases List.mem_append.mp member with earlier | last
          · exact segmentsHold segment earlier
          · rw [List.mem_singleton.mp last]
            exact rightHypothesis.1
        have spined : Derivation.chain ((Derivation.pass below first).extend segments) sign token
            spells right =
              (Derivation.pass below first).extend
                (segments ++ [⟨sign, token, spells, right⟩]) := by
          simp [extend, add]
        rw [spined]
        exact ⟨spine sign.hasSigns below first _ firstHolds held,
          fun _ => ⟨below, first, _, rfl, firstHolds, held⟩⟩
    | signed sign token spells operand inductionHypothesis =>
        exact ⟨signed sign token spells operand inductionHypothesis.1,
          fun signs => absurd (sign.hasSigns.symm.trans signs) Bool.false_ne_true⟩
    | atom leaf token spells => exact ⟨atom leaf token spells, fun signs => by cases signs⟩
    | group opening closing opens closes items inductionHypothesis =>
        exact ⟨group opening closing opens closes items inductionHypothesis.1,
          fun signs => by cases signs⟩
    | call function name opening closing names opens closes items inductionHypothesis =>
        exact ⟨call function name opening closing names opens closes items inductionHypothesis.1,
          fun signs => by cases signs⟩
  exact (strong derivation).1

/-- A derivation from a level with signs has a spine. -/
theorem exists_spine (signs : level.hasSigns = true) (derivation : Derivation level) :
    ∃ below first segments, derivation = (pass below first).extend segments := by
  induction derivation with
  | pass below operand _ => exact ⟨below, operand, [], rfl⟩
  | chain left sign token spells right leftHypothesis _ =>
      obtain ⟨below, first, segments, rfl⟩ := leftHypothesis signs
      exact ⟨below, first, segments ++ [⟨sign, token, spells, right⟩], by simp [extend, add]⟩
  | signed sign => exact absurd (sign.hasSigns.symm.trans signs) Bool.false_ne_true
  | _ => cases signs

/-- A derivation starts with a token, and if this is a sign before an operand, then at the level of
the derivation or at a tighter one. -/
theorem exists_first (derivation : Derivation level) :
    ∃ token rest, derivation.tokens = token :: rest ∧
      ∀ led ∈ leads? token.lexeme, level.rank ≤ led.rank := by
  induction derivation with
  | @pass level below operand inductionHypothesis =>
      obtain ⟨token, rest, starts, leads⟩ := inductionHypothesis
      have tighter := Level.rank_inner below
      exact ⟨token, rest, starts, fun led found => by have := leads led found; omega⟩
  | chain left sign token spells right leftHypothesis _ =>
      obtain ⟨first, rest, starts, leads⟩ := leftHypothesis
      exact ⟨first, rest ++ token :: right.tokens, by simp [tokens, starts], leads⟩
  | signed sign token spells operand _ =>
      exact ⟨token, operand.tokens, rfl, by simp [spells, sign.leads?_lexeme]⟩
  | atom leaf token spells =>
      refine ⟨token, [], rfl, ?_⟩
      rw [spells]
      cases leaf <;> simp [Atom.lexeme, leads?]
  | group opening closing opens closes items _ =>
      exact ⟨opening, _, rfl, by simp [opens, leads?]⟩
  | call function name opening closing names opens closes items _ =>
      exact ⟨name, _, rfl, by simp [names, leads?]⟩

end Derivation

end Formulary.Grammar
