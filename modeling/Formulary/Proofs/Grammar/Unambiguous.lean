import Formulary.Proofs.Grammar.Spine

/-!
# The grammar is unambiguous

Two derivations from one level that begin the same text, and are each followed by something that
does not go on with the level, are the same. The condition on what follows decides where a spine
ends; everything else is decided by the next token.
-/

namespace Formulary.Grammar

namespace Derivation

variable {level : Level}

/-- No other derivation from the level begins the same text. -/
def IsUnique (derivation : Derivation level) : Prop :=
  ∀ (other : Derivation level) (rest otherRest : List Token),
    derivation.tokens ++ rest = other.tokens ++ otherRest → Stops level rest →
    Stops level otherRest → derivation = other ∧ rest = otherRest

/-- A derivation from a tighter level does not start with a sign before an operand. -/
theorem tokens_ne_signed (below : level ≠ .primary) (sign : Prefix level) {token : Token}
    (spells : token.lexeme = sign.lexeme) (operand : Derivation level.inner)
    (rest otherRest : List Token) : operand.tokens ++ rest ≠ token :: otherRest := by
  intro same
  obtain ⟨first, more, starts, leads⟩ := operand.exists_first
  rw [starts, List.cons_append] at same
  have tighter := Level.rank_inner below
  have looser := leads level (by rw [(List.cons.inj same).1, spells, sign.leads?_lexeme]; rfl)
  omega

/-- Segments with unique operands are themselves unique. -/
theorem segments_unique {segments : List (Segment level)}
    (unique : ∀ segment ∈ segments, segment.operand.IsUnique) (others : List (Segment level))
    {rest otherRest : List Token}
    (same : segments.flatMap Segment.tokens ++ rest = others.flatMap Segment.tokens ++ otherRest)
    (stops : Stops level rest) (otherStops : Stops level otherRest) :
    segments = others ∧ rest = otherRest := by
  induction segments generalizing others with
  | nil =>
      cases others with
      | nil => exact ⟨rfl, same⟩
      | cons other more =>
          have continues : rest = other.token :: _ := same
          exact absurd (continues ▸ stops) (other.sign.not_stops other.spells _)
  | cons segment more inductionHypothesis =>
      cases others with
      | nil =>
          have continues : otherRest = segment.token :: _ := same.symm
          exact absurd (continues ▸ otherStops) (segment.sign.not_stops segment.spells _)
      | cons other otherMore =>
          obtain ⟨sign, token, spells, operand⟩ := segment
          obtain ⟨otherSign, otherToken, otherSpells, otherOperand⟩ := other
          simp only [List.flatMap_cons, Segment.tokens, List.cons_append, List.append_assoc,
            List.cons.injEq] at same
          obtain ⟨rfl, same⟩ := same
          obtain rfl := Sign.lexeme_injective (spells.symm.trans otherSpells)
          have below := Level.ne_primary_of_hasSigns sign.hasSigns
          obtain ⟨rfl, remaining⟩ := unique _ List.mem_cons_self otherOperand _ _ same
            (stops_segments below more stops) (stops_segments below otherMore otherStops)
          obtain ⟨rfl, rfl⟩ := inductionHypothesis
            (fun later member => unique later (List.mem_cons_of_mem _ member)) otherMore remaining
          exact ⟨rfl, rfl⟩

/-- A spine whose operands are unique is unique. -/
theorem isUnique_extend (signs : level.hasSigns = true) (below : level ≠ .primary)
    {first : Derivation level.inner} {segments : List (Segment level)}
    (firstUnique : first.IsUnique)
    (segmentsUnique : ∀ segment ∈ segments, segment.operand.IsUnique) :
    ((pass below first).extend segments).IsUnique := by
  intro other rest otherRest same stops otherStops
  obtain ⟨_, otherFirst, otherSegments, rfl⟩ := exists_spine signs other
  rw [tokens_extend, tokens_extend, List.append_assoc, List.append_assoc] at same
  obtain ⟨rfl, remaining⟩ := firstUnique otherFirst _ _ same
    (stops_segments below segments stops) (stops_segments below otherSegments otherStops)
  obtain ⟨rfl, rfl⟩ := segments_unique segmentsUnique otherSegments remaining stops otherStops
  exact ⟨rfl, rfl⟩

/-- Where a level has no signs between operands, an operand alone is unique. -/
theorem isUnique_pass (noSigns : level.hasSigns = false) (below : level ≠ .primary)
    {operand : Derivation level.inner} (unique : operand.IsUnique) :
    (pass below operand).IsUnique := by
  intro other rest otherRest same stops otherStops
  cases other with
  | pass _ otherOperand =>
      obtain ⟨rfl, rfl⟩ := unique otherOperand _ _ same (stops.inner below)
        (otherStops.inner below)
      exact ⟨rfl, rfl⟩
  | chain _ sign => exact absurd (noSigns.symm.trans sign.hasSigns) Bool.false_ne_true
  | signed sign token spells _ => exact absurd same (tokens_ne_signed below sign spells _ _ _)
  | _ => exact absurd rfl below

/-- A sign before a unique operand is the only way to read both. -/
theorem isUnique_signed (sign : Prefix level) {token : Token} (spells : token.lexeme = sign.lexeme)
    {operand : Derivation level} (unique : operand.IsUnique) :
    (signed sign token spells operand).IsUnique := by
  intro other rest otherRest same stops otherStops
  cases other with
  | pass below otherOperand =>
      exact absurd same.symm (tokens_ne_signed below sign spells _ _ _)
  | chain _ otherSign =>
      exact absurd (sign.hasSigns.symm.trans otherSign.hasSigns) Bool.false_ne_true
  | signed otherSign otherToken otherSpells otherOperand =>
      simp only [tokens, List.cons_append, List.cons.injEq] at same
      obtain ⟨rfl, same⟩ := same
      obtain rfl := sign.eq otherSign
      obtain ⟨rfl, rfl⟩ := unique otherOperand _ _ same stops otherStops
      exact ⟨rfl, rfl⟩
  | _ => cases sign

/-- A primary is an atom, a group or a call. -/
theorem primary_cases (derivation : Derivation .primary) :
    (∃ leaf token spells, derivation = atom leaf token spells) ∨
      (∃ opening closing opens closes items,
        derivation = group opening closing opens closes items) ∨
      ∃ function name opening closing names opens closes items,
        derivation = call function name opening closing names opens closes items := by
  cases derivation with
  | pass below => exact absurd rfl below
  | chain _ sign => cases sign
  | signed sign => cases sign
  | atom leaf token spells => exact .inl ⟨leaf, token, spells, rfl⟩
  | group opening closing opens closes items =>
      exact .inr (.inl ⟨opening, closing, opens, closes, items, rfl⟩)
  | call function name opening closing names opens closes items =>
      exact .inr (.inr ⟨function, name, opening, closing, names, opens, closes, items, rfl⟩)

/-- An atom is told by its token. -/
theorem isUnique_atom (leaf : Atom) {token : Token} (spells : token.lexeme = leaf.lexeme) :
    (atom leaf token spells).IsUnique := by
  intro other rest otherRest same _ _
  obtain ⟨otherLeaf, otherToken, otherSpells, rfl⟩ | ⟨opening, _, opens, _, _, rfl⟩ |
    ⟨function, name, _, _, names, _, _, _, rfl⟩ := primary_cases other
  · simp only [tokens, List.cons_append, List.nil_append, List.cons.injEq] at same
    obtain ⟨rfl, rfl⟩ := same
    obtain rfl := Atom.lexeme_injective (spells.symm.trans otherSpells)
    exact ⟨rfl, rfl⟩
  · obtain rfl : token = opening := (List.cons.inj same).1
    exact absurd (spells.symm.trans opens) leaf.lexeme_ne_leftParen
  · obtain rfl : token = name := (List.cons.inj same).1
    exact absurd (spells.symm.trans names) (leaf.lexeme_ne_function function)

/-- A group is told by its first token, and ends where its unique items end. -/
theorem isUnique_group {opening closing : Token} (opens : opening.lexeme = .leftParen)
    (closes : closing.lexeme = .rightParen) {items : Derivation .list} (unique : items.IsUnique) :
    (group opening closing opens closes items).IsUnique := by
  intro other rest otherRest same _ _
  obtain ⟨leaf, token, spells, rfl⟩ | ⟨_, otherClosing, _, otherCloses, otherItems, rfl⟩ |
    ⟨function, name, _, _, names, _, _, _, rfl⟩ := primary_cases other
  · obtain rfl : opening = token := (List.cons.inj same).1
    exact absurd (spells.symm.trans opens) leaf.lexeme_ne_leftParen
  · simp only [tokens, List.cons_append, List.append_assoc, List.cons.injEq] at same
    obtain ⟨rfl, same⟩ := same
    obtain ⟨rfl, remaining⟩ := unique otherItems _ _ same (stops_closing closes _)
      (stops_closing otherCloses _)
    obtain ⟨rfl, rfl⟩ := List.cons.inj remaining
    exact ⟨rfl, rfl⟩
  · obtain rfl : opening = name := (List.cons.inj same).1
    cases opens.symm.trans names

/-- A call is told by its first token, and ends where its unique items end. -/
theorem isUnique_call {function : Builtin} {name opening closing : Token}
    (names : name.lexeme = .function function) (opens : opening.lexeme = .leftParen)
    (closes : closing.lexeme = .rightParen) {items : Derivation .list} (unique : items.IsUnique) :
    (call function name opening closing names opens closes items).IsUnique := by
  intro other rest otherRest same _ _
  obtain ⟨leaf, token, spells, rfl⟩ | ⟨otherOpening, _, otherOpens, _, _, rfl⟩ |
    ⟨otherFunction, _, _, otherClosing, otherNames, _, otherCloses, otherItems, rfl⟩ :=
      primary_cases other
  · obtain rfl : name = token := (List.cons.inj same).1
    exact absurd (spells.symm.trans names) (leaf.lexeme_ne_function function)
  · obtain rfl : name = otherOpening := (List.cons.inj same).1
    cases names.symm.trans otherOpens
  · simp only [tokens, List.cons_append, List.append_assoc, List.cons.injEq] at same
    obtain ⟨rfl, rfl, same⟩ := same
    obtain rfl := Lexeme.function.inj (names.symm.trans otherNames)
    obtain ⟨rfl, remaining⟩ := unique otherItems _ _ same (stops_closing closes _)
      (stops_closing otherCloses _)
    obtain ⟨rfl, rfl⟩ := List.cons.inj remaining
    exact ⟨rfl, rfl⟩

/-- Every derivation is unique. -/
theorem isUnique (derivation : Derivation level) : derivation.IsUnique := by
  induction derivation using spine_induction with
  | spine signs below first segments firstUnique segmentsUnique =>
      exact isUnique_extend signs below firstUnique segmentsUnique
  | pass noSigns below operand unique => exact isUnique_pass noSigns below unique
  | signed sign token spells operand unique => exact isUnique_signed sign spells unique
  | atom leaf token spells => exact isUnique_atom leaf spells
  | group opening closing opens closes items unique => exact isUnique_group opens closes unique
  | call function name opening closing names opens closes items unique =>
      exact isUnique_call names opens closes unique

end Derivation

end Formulary.Grammar
