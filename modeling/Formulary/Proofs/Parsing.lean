import Formulary.Proofs.Grammar.Reading
import Formulary.Proofs.Grammar.Unambiguous

/-!
# Reading follows the grammar

Whatever is read at a level is the expression of an admissible derivation from that level, and every
admissible derivation is read, provided that what follows does not go on with it. The first is
proved by induction on the length of the tokens, from the tightest level to the loosest, and the
second by induction on derivations along their spines. With the uniqueness of derivations, reading a
whole formula succeeds exactly when there is a derivation.
-/

namespace Formulary.Grammar

open Expression (Item Items)

/-- The expressions of the items of a list. -/
def expressions (items : Items) : List Expression :=
  (items.head :: items.tail).map Item.expression

/-- A lexeme that joins operands at a level is a sign of that level. -/
theorem exists_sign {level : Level} {lexeme : Lexeme} (joins : joins? lexeme = some level) :
    ∃ sign : Sign level, lexeme = sign.lexeme := by
  cases lexeme with
  | plus => cases joins; exact ⟨.sum .plus, rfl⟩
  | minus => cases joins; exact ⟨.sum .minus, rfl⟩
  | star => cases joins; exact ⟨.star, rfl⟩
  | slash => cases joins; exact ⟨.slash, rfl⟩
  | comma => cases joins; exact ⟨.comma, rfl⟩
  | comparison operator => cases joins; exact ⟨.comparison operator, rfl⟩
  | logical operator => cases joins; exact ⟨.logical operator, rfl⟩
  | _ => cases joins

/-- A lexeme that stands before operands at a level is a sign of that level. -/
theorem exists_leading {level : Level} {lexeme : Lexeme} (leads : leads? lexeme = some level) :
    ∃ sign : Prefix level, lexeme = sign.lexeme := by
  cases lexeme with
  | minus => cases leads; exact ⟨.minus, rfl⟩
  | not => cases leads; exact ⟨.not, rfl⟩
  | _ => cases leads

theorem Level.inner_ne_list (level : Level) : level.inner ≠ .list := by
  cases level <;> exact nofun

/-- What stops a level is none of its signs. -/
theorem Stops.not_sign {level : Level} {tokens : List Token} (stops : Stops level tokens) :
    ∀ token ∈ tokens.head?, joins? token.lexeme ≠ some level :=
  fun token next joins => Nat.lt_irrefl _ (stops token next level joins)

namespace Derivation

variable {level : Level}

/-- The expression of a spine is joined from the left. -/
theorem tree_extend (left : Derivation level) (segments : List (Segment level)) :
    (left.extend segments).tree =
      segments.foldl (fun joined segment => segment.sign.join joined segment.operand.tree)
        left.tree := by
  induction segments generalizing left with
  | nil => rfl
  | cons segment rest inductionHypothesis => exact inductionHypothesis (left.add segment)

/-- Items with the expressions of a list are joined to its expression. -/
theorem join_eq_tree {derivation : Derivation .list} {items : Items}
    (same : expressions items = derivation.operands) : items.join = derivation.tree := by
  obtain ⟨below, first, segments, rfl⟩ := exists_spine rfl derivation
  rw [operands_extend] at same
  obtain ⟨head, tail⟩ := List.cons.inj same
  have commas : ∀ joined (segment : Segment .list),
      segment.sign.join joined segment.operand.tree = .concat joined segment.operand.tree := by
    intro joined segment
    cases segment.sign
    rfl
  calc items.tail.foldl (fun joined item => .concat joined item.expression) items.head.expression
      = (items.tail.map Item.expression).foldl .concat items.head.expression :=
        List.foldl_map.symm
    _ = (segments.map fun segment => segment.operand.tree).foldl .concat first.tree := by
        rw [head, tail]
        rfl
    _ = ((pass below first).extend segments).tree := by
        rw [List.foldl_map, tree_extend]
        simp only [commas]
        rfl

end Derivation

/-! ## What is read has a derivation -/

section Reading

variable (finish : Nat)

/-- What is read at a level from some tokens is the expression of an admissible derivation. -/
def SoundAt (level : Level) (tokens : List Token) : Prop :=
  ∀ whole rest, read finish level tokens = .ok (whole, rest) →
    ∃ derivation : Derivation level, derivation.tokens ++ rest = tokens ∧
      derivation.Admissible ∧ derivation.tree = whole

/-- The items that are read from some tokens are those of an admissible derivation. -/
def SoundItems (tokens : List Token) : Prop :=
  ∀ items rest, readItems finish tokens = .ok (items, rest) →
    ∃ derivation : Derivation .list, derivation.tokens ++ rest = tokens ∧
      derivation.Admissible ∧ derivation.operands = expressions items

variable {finish}

/-- Where a level goes on after a derivation, it goes on with segments. -/
theorem sound_tail {level : Level} (noList : level ≠ .list) {start : Token} {tokens : List Token}
    (inner : ∀ after : List Token, after.length < tokens.length → SoundAt finish level.inner after)
    {left : Derivation level} (admissible : left.Admissible) {whole : Expression}
    {rest : List Token}
    (ran : readTail finish level start left.tree tokens = .ok (whole, rest)) :
    ∃ derivation : Derivation level, derivation.tokens ++ rest = left.tokens ++ tokens ∧
      derivation.Admissible ∧ derivation.tree = whole := by
  induction length : tokens.length using Nat.strongRecOn generalizing tokens left with
  | ind count inductionHypothesis =>
      by_cases stop : ∀ token ∈ tokens.head?, joins? token.lexeme ≠ some level
      · rw [readTail_of_stop level start left.tree stop] at ran
        cases ran
        exact ⟨left, rfl, admissible, rfl⟩
      · cases tokens with
        | nil => exact absurd (by simp) stop
        | cons token after =>
            have joins : joins? token.lexeme = some level := by simpa using stop
            obtain ⟨sign, spells⟩ := exists_sign joins
            obtain ⟨right, middle, ranRight, accepts, ranTail⟩ :=
              (readTail_of_sign noList sign spells).mp ran
            obtain ⟨operand, yields, operandAdmissible, rfl⟩ :=
              inner after (by simp) right middle ranRight
            have shorter : middle.length ≤ after.length := by rw [← yields]; simp
            rw [left.positiveWidth_tree, operand.positiveWidth_tree] at accepts
            have reached : (Derivation.chain left sign token spells operand).Admissible :=
              ⟨admissible, operandAdmissible, accepts⟩
            simp only [List.length_cons] at length inner
            obtain ⟨derivation, yieldsAll, whole, same⟩ := inductionHypothesis middle.length
              (by omega) (fun after fewer => inner after (by omega)) reached ranTail rfl
            refine ⟨derivation, ?_, whole, same⟩
            rw [yieldsAll, ← yields]
            simp [Derivation.tokens]

/-- A level with signs is sound when the tighter level is. -/
theorem sound_chain (level : Level) (signs : level.hasSigns = true) (noList : level ≠ .list)
    {tokens : List Token} (here : SoundAt finish level.inner tokens)
    (inner : ∀ after : List Token, after.length < tokens.length →
      SoundAt finish level.inner after) : SoundAt finish level tokens := by
  intro whole rest ran
  obtain ⟨left, middle, ranLeft, ranTail⟩ := (read_eq_ok_iff signs noList).mp ran
  obtain ⟨first, yields, admissible, rfl⟩ := here left middle ranLeft
  have shorter : middle.length ≤ tokens.length := by rw [← yields]; simp
  have start : (Derivation.pass (Level.ne_primary_of_hasSigns signs) first).Admissible := admissible
  obtain ⟨derivation, yieldsAll, whole, same⟩ := sound_tail noList
    (fun after fewer => inner after (by omega)) start ranTail
  exact ⟨derivation, yieldsAll.trans yields, whole, same⟩

/-- A level with signs before its operands is sound when the tighter level is. -/
theorem sound_prefixed (level : Level) (noSigns : level.hasSigns = false)
    (below : level ≠ .primary) {tokens : List Token} (here : SoundAt finish level.inner tokens)
    (again : ∀ after : List Token, after.length < tokens.length → SoundAt finish level after) :
    SoundAt finish level tokens := by
  intro whole rest ran
  by_cases unsigned : ∀ token ∈ tokens.head?, leads? token.lexeme ≠ some level
  · rw [read_unsigned below noSigns unsigned] at ran
    obtain ⟨operand, yields, admissible, same⟩ := here whole rest ran
    exact ⟨.pass below operand, yields, admissible, same⟩
  · cases tokens with
    | nil => exact absurd (by simp) unsigned
    | cons token after =>
        have leads : leads? token.lexeme = some level := by simpa using unsigned
        obtain ⟨sign, spells⟩ := exists_leading leads
        obtain ⟨found, ranOperand, accepts, rfl⟩ := (read_signed sign spells).mp ran
        obtain ⟨operand, yields, admissible, rfl⟩ := again after (by simp) found rest ranOperand
        refine ⟨.signed sign token spells operand, ?_, ?_, rfl⟩
        · rw [← yields]
          rfl
        · rw [operand.width_tree] at accepts
          cases sign with
          | not => exact ⟨admissible, accepts⟩
          | minus => exact admissible

/-- Primaries are sound when lists are. -/
theorem sound_primary {tokens : List Token}
    (lists : ∀ after : List Token, after.length < tokens.length → SoundItems finish after) :
    SoundAt finish .primary tokens := by
  intro whole rest ran
  obtain ⟨token, after, rfl, ⟨leaf, spells⟩ | opens | ⟨function, names⟩⟩ := primary_starts ran
  · rw [read_atom leaf spells] at ran
    cases ran
    exact ⟨.atom leaf token spells, rfl, trivial, rfl⟩
  · obtain ⟨items, closing, ranItems, closes, rfl⟩ := (read_group opens).mp ran
    obtain ⟨list, yields, admissible, same⟩ := lists after (by simp) items _ ranItems
    refine ⟨.group token closing opens closes list, ?_, admissible, ?_⟩
    · rw [← yields]
      simp [Derivation.tokens]
    · exact (Derivation.join_eq_tree same.symm).symm
  · obtain ⟨opening, inner, items, closing, rfl, opens, ranItems, closes, matching, scalars, rfl⟩ :=
      (read_call names).mp ran
    obtain ⟨list, yields, admissible, same⟩ := lists inner
      (by simp only [List.length_cons]; omega) items _ ranItems
    refine ⟨.call function token opening closing names opens closes list, ?_, ⟨admissible, ?_, ?_⟩,
      ?_⟩
    · rw [← yields]
      simp [Derivation.tokens]
    · rw [list.operandWidths_eq, same]
      simpa [expressions, Items.count] using matching
    · rw [list.operandWidths_eq, same]
      simpa [expressions] using scalars
    · rw [Derivation.tree, ← Derivation.join_eq_tree same.symm]

/-- Behind an item, the items that follow are read as segments. -/
theorem sound_items_tail {tokens : List Token}
    (expressions : ∀ after : List Token, after.length < tokens.length →
      SoundAt finish .expression after)
    {left : Derivation .list} (admissible : left.Admissible) {tail : List Item}
    {rest : List Token} (ran : readItemsTail finish tokens = .ok (tail, rest)) :
    ∃ derivation : Derivation .list, derivation.tokens ++ rest = left.tokens ++ tokens ∧
      derivation.Admissible ∧
      derivation.operands = left.operands ++ tail.map Item.expression := by
  induction length : tokens.length using Nat.strongRecOn generalizing tokens left tail with
  | ind count inductionHypothesis =>
      by_cases stop : ∀ token ∈ tokens.head?, joins? token.lexeme ≠ some .list
      · rw [readItemsTail_of_stop stop] at ran
        cases ran
        exact ⟨left, rfl, admissible, by simp⟩
      · cases tokens with
        | nil => exact absurd (by simp) stop
        | cons token after =>
            have joins : joins? token.lexeme = some .list := by simpa using stop
            obtain ⟨sign, spells⟩ := exists_sign joins
            cases sign
            obtain ⟨found, middle, more, ranItem, ranTail, rfl⟩ :=
              (readItemsTail_of_comma spells).mp ran
            obtain ⟨item, yields, itemAdmissible, rfl⟩ :=
              expressions after (by simp) found middle ranItem
            have shorter : middle.length ≤ after.length := by rw [← yields]; simp
            have reached : (Derivation.chain left .comma token spells item).Admissible :=
              ⟨admissible, itemAdmissible, trivial⟩
            simp only [List.length_cons] at length expressions
            obtain ⟨derivation, yieldsAll, whole, same⟩ := inductionHypothesis middle.length
              (by omega) (fun after fewer => expressions after (by omega)) reached ranTail rfl
            refine ⟨derivation, ?_, whole, ?_⟩
            · rw [yieldsAll, ← yields]
              simp [Derivation.tokens]
              rfl
            · rw [same]
              simp [Derivation.operands]
              rfl

/-- Lists are sound when expressions are. -/
theorem sound_items {tokens : List Token} (here : SoundAt finish .expression tokens)
    (later : ∀ after : List Token, after.length < tokens.length →
      SoundAt finish .expression after) : SoundItems finish tokens := by
  intro items rest ran
  obtain ⟨found, middle, tail, ranItem, ranTail, rfl⟩ := readItems_eq_ok_iff.mp ran
  obtain ⟨item, yields, admissible, rfl⟩ := here found middle ranItem
  have shorter : middle.length ≤ tokens.length := by rw [← yields]; simp
  have start : (@Derivation.pass .list nofun item).Admissible := admissible
  obtain ⟨derivation, yieldsAll, whole, same⟩ :=
    sound_items_tail (fun after fewer => later after (by omega)) start ranTail
  exact ⟨derivation, yieldsAll.trans yields, whole, same⟩

/-- Whatever is read has a derivation. -/
theorem sound (tokens : List Token) :
    (∀ level, level ≠ .list → SoundAt finish level tokens) ∧ SoundItems finish tokens := by
  -- Levels descend on the same tokens; only behind a sign or a parenthesis are there fewer.
  induction length : tokens.length using Nat.strongRecOn generalizing tokens with
  | ind count inductionHypothesis =>
      have shorter : ∀ level, level ≠ .list → ∀ after : List Token,
          after.length < tokens.length → SoundAt finish level after :=
        fun level noList after fewer =>
          (inductionHypothesis after.length (by omega) after rfl).1 level noList
      have lists : ∀ after : List Token, after.length < tokens.length → SoundItems finish after :=
        fun after fewer => (inductionHypothesis after.length (by omega) after rfl).2
      have primary : SoundAt finish .primary tokens := sound_primary lists
      have unary : SoundAt finish .unary tokens :=
        sound_prefixed .unary rfl nofun primary (shorter .unary nofun)
      have term : SoundAt finish .term tokens :=
        sound_chain .term rfl nofun unary (shorter .unary nofun)
      have additive : SoundAt finish .additive tokens :=
        sound_chain .additive rfl nofun term (shorter .term nofun)
      have comparison : SoundAt finish .comparison tokens :=
        sound_chain .comparison rfl nofun additive (shorter .additive nofun)
      have negation : SoundAt finish .negation tokens :=
        sound_prefixed .negation rfl nofun comparison (shorter .negation nofun)
      have expression : SoundAt finish .expression tokens :=
        sound_chain .expression rfl nofun negation (shorter .negation nofun)
      refine ⟨?_, sound_items expression (shorter .expression nofun)⟩
      intro level noList
      cases level with
      | list => exact absurd rfl noList
      | _ => assumption

/-! ## What has a derivation is read -/

variable (finish) in
/-- A derivation is read from its tokens, whatever stops its level behind them. -/
structure Complete {level : Level} (derivation : Derivation level) : Prop where
  reads : level ≠ .list → derivation.Admissible → ∀ rest, Stops level rest →
    read finish level (derivation.tokens ++ rest) = .ok (derivation.tree, rest)
  readsItems : level = .list → derivation.Admissible → ∀ rest, Stops level rest →
    ∃ items, readItems finish (derivation.tokens ++ rest) = .ok (items, rest) ∧
      expressions items = derivation.operands

/-- Behind a derivation, segments are read until something stops the level. -/
theorem complete_tail {level : Level} (noList : level ≠ .list) {start : Token}
    {segments : List (Segment level)}
    (complete : ∀ segment ∈ segments, Complete finish segment.operand) {left : Derivation level}
    (admissible : (left.extend segments).Admissible) {rest : List Token}
    (stops : Stops level rest) :
    readTail finish level start left.tree (segments.flatMap Segment.tokens ++ rest) =
      .ok ((left.extend segments).tree, rest) := by
  induction segments generalizing left with
  | nil => exact readTail_of_stop level start left.tree stops.not_sign
  | cons segment more inductionHypothesis =>
      have below := Level.ne_primary_of_hasSigns segment.sign.hasSigns
      have reached : (left.add segment).Admissible := Derivation.admissible_of_extend admissible
      obtain ⟨_, operandAdmissible, accepts⟩ := reached
      rw [← left.positiveWidth_tree, ← segment.operand.positiveWidth_tree] at accepts
      have operand := (complete segment List.mem_cons_self).reads level.inner_ne_list
        operandAdmissible _ (stops_segments below more stops)
      have later := inductionHypothesis
        (fun other member => complete other (List.mem_cons_of_mem _ member)) admissible
      simp only [List.flatMap_cons, Segment.tokens, List.cons_append, List.append_assoc]
      exact (readTail_of_sign noList segment.sign segment.spells).mpr
        ⟨segment.operand.tree, _, operand, accepts, later⟩

/-- Behind an item, the items that follow are read until something stops the list. -/
theorem complete_items_tail {segments : List (Segment .list)}
    (complete : ∀ segment ∈ segments, Complete finish segment.operand)
    (admissible : ∀ segment ∈ segments, segment.operand.Admissible) {rest : List Token}
    (stops : Stops .list rest) :
    ∃ tail, readItemsTail finish (segments.flatMap Segment.tokens ++ rest) = .ok (tail, rest) ∧
      tail.map Item.expression = segments.map fun segment => segment.operand.tree := by
  induction segments with
  | nil => exact ⟨[], readItemsTail_of_stop stops.not_sign, rfl⟩
  | cons segment more inductionHypothesis =>
      obtain ⟨sign, token, spells, operand⟩ := segment
      cases sign
      have item := (complete _ List.mem_cons_self).reads (by decide)
        (admissible _ List.mem_cons_self) _
        (stops_segments (Level.ne_primary_of_hasSigns rfl) more stops)
      obtain ⟨tail, ran, same⟩ := inductionHypothesis
        (fun other member => complete other (List.mem_cons_of_mem _ member))
        (fun other member => admissible other (List.mem_cons_of_mem _ member))
      simp only [List.flatMap_cons, Segment.tokens, List.cons_append, List.append_assoc]
      refine ⟨_, (readItemsTail_of_comma spells).mpr ⟨operand.tree, _, tail, item, ran, rfl⟩, ?_⟩
      simp [same]

/-- Every derivation is read. -/
theorem complete {level : Level} (derivation : Derivation level) : Complete finish derivation := by
  induction derivation using Derivation.spine_induction with
  | @spine level signs below first segments firstComplete segmentsComplete =>
      refine ⟨?_, ?_⟩
      · intro noList admissible rest stops
        have start : (Derivation.pass below first).Admissible :=
          Derivation.admissible_of_extend admissible
        have operand := firstComplete.reads level.inner_ne_list start _
          (stops_segments below segments stops)
        rw [Derivation.tokens_extend, List.append_assoc]
        exact (read_eq_ok_iff signs noList).mpr
          ⟨first.tree, _, operand, complete_tail noList segmentsComplete admissible stops⟩
      · rintro rfl admissible rest stops
        have start : (Derivation.pass below first).Admissible :=
          Derivation.admissible_of_extend admissible
        have item := firstComplete.reads (by decide) start _
          (stops_segments below segments stops)
        obtain ⟨tail, ran, same⟩ := complete_items_tail segmentsComplete
          (Derivation.admissible_segments admissible) stops
        rw [Derivation.tokens_extend, List.append_assoc]
        refine ⟨_, readItems_eq_ok_iff.mpr ⟨first.tree, _, tail, item, ran, rfl⟩, ?_⟩
        rw [Derivation.operands_extend, ← same]
        rfl
  | @pass level noSigns below operand operandComplete =>
      refine ⟨?_, fun list => by subst list; cases noSigns⟩
      intro noList admissible rest stops
      have unsigned : ∀ token ∈ (operand.tokens ++ rest).head?,
          leads? token.lexeme ≠ some level := by
        intro token next leads
        obtain ⟨sign, spells⟩ := exists_leading leads
        obtain ⟨after, starts⟩ := List.head?_eq_some_iff.mp next
        exact Derivation.tokens_ne_signed below sign spells operand rest after starts
      have whole := operandComplete.reads level.inner_ne_list admissible rest (stops.inner below)
      rw [Derivation.tokens, read_unsigned below noSigns unsigned, whole]
      rfl
  | @signed level sign token spells operand operandComplete =>
      refine ⟨?_, fun list => by subst list; cases sign⟩
      intro noList admissible rest stops
      have held : operand.Admissible ∧ sign.Accepts operand.width.val := by
        cases sign with
        | not => exact admissible
        | minus => exact ⟨admissible, trivial⟩
      have whole := operandComplete.reads noList held.1 rest stops
      refine (read_signed sign spells).mpr ⟨operand.tree, whole, ?_, rfl⟩
      rw [operand.width_tree]
      exact held.2
  | atom leaf token spells =>
      exact ⟨fun _ _ rest _ => read_atom leaf spells rest, fun list => by cases list⟩
  | group opening closing opens closes items itemsComplete =>
      refine ⟨?_, fun list => by cases list⟩
      intro _ admissible rest _
      obtain ⟨found, ran, same⟩ := itemsComplete.readsItems rfl admissible (closing :: rest)
        (stops_closing closes rest)
      refine (read_group opens).mpr ⟨found, closing, ?_, closes, Derivation.join_eq_tree same⟩
      simpa using ran
  | call function name opening closing names opens closes items itemsComplete =>
      refine ⟨?_, fun list => by cases list⟩
      intro _ admissible rest _
      obtain ⟨itemsAdmissible, matching, scalars⟩ := admissible
      obtain ⟨found, ran, same⟩ := itemsComplete.readsItems rfl itemsAdmissible (closing :: rest)
        (stops_closing closes rest)
      rw [items.operandWidths_eq, ← same] at matching scalars
      refine (read_call names).mpr ⟨opening, items.tokens ++ closing :: rest, found, closing, ?_,
        opens, ran, closes, ?_, ?_, ?_⟩
      · simp
      · simpa [expressions, Items.count] using matching
      · simpa [expressions] using scalars
      · rw [Derivation.join_eq_tree same, Derivation.tree]

/-! ## Whole formulas -/

/-- A derivation explains a formula: it is the only one, and everything that is known of the formula
is synthesized from it. -/
structure Explains (tokens : List Token) (formula : Expression)
    (derivation : Derivation .expression) : Prop where
  tokens_eq : derivation.tokens = tokens
  admissible : derivation.Admissible
  unique : ∀ other : Derivation .expression, other.tokens = tokens → other = derivation
  code_eq : formula.code = derivation.steps
  resultType_eq : formula.resultType = derivation.resultType

/-- What was read is explained by a derivation. -/
theorem exists_explains {finish : Nat} {tokens : List Token} {formula : Expression}
    (ran : Expression.parse finish tokens = .ok formula) :
    ∃ derivation, Explains tokens formula derivation ∧ derivation.tree = formula := by
  obtain ⟨derivation, yields, admissible, rfl⟩ :=
    (sound tokens).1 .expression nofun formula [] (parse_eq_ok_iff.mp ran)
  rw [List.append_nil] at yields
  refine ⟨derivation, ⟨yields, admissible, ?_, derivation.code_tree, derivation.resultType_tree⟩,
    rfl⟩
  intro other same
  exact (other.isUnique derivation [] [] (by rw [same, yields]) (stops_nil _) (stops_nil _)).1

/-- The tokens of an admissible derivation are read as its expression. -/
theorem parse_tokens (finish : Nat) {derivation : Derivation .expression}
    (admissible : derivation.Admissible) :
    Expression.parse finish derivation.tokens = .ok derivation.tree := by
  have whole : Complete finish derivation := complete derivation
  have ran := whole.reads nofun admissible [] (stops_nil _)
  rw [List.append_nil] at ran
  exact parse_eq_ok_iff.mpr ran

/-- Formulas are read exactly from the tokens that have an admissible derivation, which explains
what was read. -/
theorem parse_iff_derivation (finish : Nat) (tokens : List Token) :
    ((∃ formula, Expression.parse finish tokens = .ok formula) ↔
      ∃ derivation : Derivation .expression, derivation.tokens = tokens ∧ derivation.Admissible) ∧
    ∀ formula, Expression.parse finish tokens = .ok formula →
      ∃ derivation, Explains tokens formula derivation := by
  refine ⟨⟨?_, ?_⟩, fun formula ran => ?_⟩
  · rintro ⟨formula, ran⟩
    obtain ⟨derivation, explains, _⟩ := exists_explains ran
    exact ⟨derivation, explains.tokens_eq, explains.admissible⟩
  · rintro ⟨derivation, rfl, admissible⟩
    exact ⟨derivation.tree, parse_tokens finish admissible⟩
  · obtain ⟨derivation, explains, _⟩ := exists_explains ran
    exact ⟨derivation, explains⟩

end Reading

end Formulary.Grammar
