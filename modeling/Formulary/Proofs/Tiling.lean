import Formulary.Proofs.Scanning

/-!
# The tokens of a source tile it

The spans of the tokens of a source lie side by side in it, each around the characters that its
token shows as its text, and what lies between them is blank. There is one exception, and
`tokenize_tiles` tells exactly when it occurs: a source that ends in `<` or `>` ends in a token
whose span goes one place too far. Cut off at the end of the source, the spans always tile it.
-/

namespace Formulary

open Formulary.Text (isBlank)

/-- The span of a token lies in the source, has at least one character, and holds the text of the
token. -/
structure Token.Covers (source : List Char) (token : Token) : Prop where
  nonempty : token.start < token.stop
  inside : token.stop ≤ source.length
  text_eq : token.text.toList = (source.drop token.start).take (token.stop - token.start)
  length_eq : token.text.length = token.stop - token.start

/-- From a position on, a source consists of the spans of tokens, one behind the other and all
before the end of the source, and of blanks. -/
structure Tiles (position : Nat) (source : List Char) (tokens : List Token) : Prop where
  starts : ∀ token ∈ tokens, position ≤ token.start
  covers : ∀ token ∈ tokens, token.Covers source
  ordered : (tokens ++ [Token.finish source.length]).Pairwise fun earlier later =>
    earlier.stop ≤ later.start
  blank : ∀ (index : Nat) (inside : index < source.length), position ≤ index →
    (∀ token ∈ tokens, ¬(token.start ≤ index ∧ index < token.stop)) → isBlank source[index] = true

/-- A token whose span is cut off at a length. -/
def Token.cut (length : Nat) (token : Token) : Token :=
  { token with stop := min token.stop length }

/-- A source whose last character is one of the signs `<` and `>`. -/
def EndsInSign (source : List Char) : Prop :=
  source.getLast? = some '<' ∨ source.getLast? = some '>'

theorem endsInSign_of_lone {text : List Char} (lone : Lexer.IsLoneSign text) : EndsInSign text := by
  rcases lone with rfl | rfl
  · exact .inl rfl
  · exact .inr rfl

theorem endsInSign_singleton_iff {character : Char} :
    EndsInSign [character] ↔ Lexer.IsLoneSign [character] := by
  simp [EndsInSign, Lexer.IsLoneSign]

/-- What ends in a sign ends so from any place before its end on, and from no other. -/
theorem endsInSign_drop_iff {text : List Char} {count : Nat} :
    EndsInSign (text.drop count) ↔ count < text.length ∧ EndsInSign text := by
  simp only [EndsInSign, List.getLast?_drop]
  split
  case isTrue behind => simp [Nat.not_lt.mpr behind]
  case isFalse before => simp [Nat.not_le.mp before]

/-! ## Tiles are laid from left to right -/

namespace Tiles

variable {position : Nat} {source : List Char} {tokens : List Token}

/-- Behind the end of a source there is nothing to cover. -/
theorem finish (behind : source.length ≤ position) : Tiles position source [] where
  starts := by simp
  covers := by simp
  ordered := by simp
  blank index inside from_position _ := by omega

/-- A blank is left uncovered. -/
theorem skip (inside : position < source.length) (blank : isBlank source[position] = true)
    (later : Tiles (position + 1) source tokens) : Tiles position source tokens where
  starts token member := by
    have := later.starts token member
    omega
  covers := later.covers
  ordered := later.ordered
  blank index within reached uncovered := by
    rcases Nat.eq_or_lt_of_le reached with rfl | behind
    · exact blank
    · exact later.blank index within behind uncovered

/-- A token goes before tokens that tile the source from its end on. -/
theorem cons {token : Token} (covers : token.Covers source)
    (later : Tiles token.stop source tokens) : Tiles token.start source (token :: tokens) where
  starts other member := by
    rcases List.mem_cons.mp member with rfl | inLater
    · exact Nat.le_refl _
    · have := later.starts other inLater
      have := covers.nonempty
      omega
  covers other member := by
    rcases List.mem_cons.mp member with rfl | inLater
    · exact covers
    · exact later.covers other inLater
  ordered := by
    refine List.pairwise_cons.mpr ⟨?_, later.ordered⟩
    intro other member
    rcases List.mem_append.mp member with inLater | last
    · exact later.starts other inLater
    · rw [List.mem_singleton.mp last]
      exact covers.inside
  blank index within reached uncovered := by
    have outside := uncovered token List.mem_cons_self
    exact later.blank index within (by omega) fun other member =>
      uncovered other (List.mem_cons_of_mem _ member)

/-- A position behind the source may be moved to its end. -/
theorem min_length (tiles : Tiles position source tokens) :
    Tiles (min position source.length) source tokens where
  starts token member := by
    have := tiles.starts token member
    omega
  covers := tiles.covers
  ordered := tiles.ordered
  blank index inside reached uncovered := tiles.blank index inside (by omega) uncovered

end Tiles

/-! ## The tokens of a scan -/

namespace Lexer.Scanned

variable {scope : Scope} {position : Nat} {text : List Char} {tokens : List Token}

/-- Cut off at the end of the source, the tokens of a scan tile it. -/
theorem tiles_cut (scanned : Scanned scope position text tokens) {source : List Char}
    (here : source.drop position = text) :
    Tiles position source (tokens.map (Token.cut source.length)) := by
  induction scanned with
  | finish position => exact .finish (List.drop_eq_nil_iff.mp here)
  | @blank position first rest tokens skipped _ inductionHypothesis =>
      have inside : position < source.length := by
        have := congrArg List.length here
        simp at this
        omega
      rw [List.drop_eq_getElem_cons inside] at here
      obtain ⟨rfl, later⟩ := List.cons.inj here
      exact .skip inside skipped (inductionHypothesis later)
  | @token position first rest found length tokens visible read _ inductionHypothesis =>
      obtain ⟨more, rfl⟩ : ∃ more, length = more + 1 :=
        ⟨length - 1, (Nat.sub_add_cancel (taken_of_lexeme read).positive).symm⟩
      have size : source.length = position + (rest.length + 1) := by
        have := congrArg List.length here
        simp at this
        omega
      have later : source.drop (position + (more + 1)) = rest.drop (more + 1 - 1) := by
        rw [← List.drop_drop, here]
        rfl
      have reached := (inductionHypothesis later).min_length
      let whole : Token := ⟨found, String.ofList ((first :: rest).take (more + 1)), position,
        position + (more + 1)⟩
      have covered : (whole.cut source.length).Covers source := by
        refine ⟨?_, Nat.min_le_right _ _, ?_, ?_⟩
        · simp only [whole, Token.cut]
          omega
        · simp only [whole, Token.cut, String.toList_ofList, here]
          rw [List.take_eq_take_iff]
          simp only [List.length_cons]
          omega
        · simp only [whole, Token.cut, String.length_ofList, List.length_take, List.length_cons]
          omega
      exact .cons covered reached

/-- In a text that does not end in a sign, no token reaches beyond the end. -/
theorem stop_le (scanned : Scanned scope position text tokens) (noSign : ¬EndsInSign text) :
    ∀ token ∈ tokens, token.stop ≤ position + text.length := by
  induction scanned with
  | finish => simp
  | @blank position first rest tokens _ _ inductionHypothesis =>
      intro token member
      have later : ¬EndsInSign ((first :: rest).drop 1) := fun sign =>
        noSign (endsInSign_drop_iff.mp sign).2
      have := inductionHypothesis later token member
      simp only [List.length_cons]
      omega
  | @token position first rest found length tokens _ read _ inductionHypothesis =>
      have taken := taken_of_lexeme read
      have within := taken.within fun lone => noSign (endsInSign_of_lone lone)
      have positive := taken.positive
      intro token member
      rcases List.mem_cons.mp member with rfl | inLater
      · exact Nat.add_le_add_left within _
      · have later : ¬EndsInSign (rest.drop (length - 1)) := fun sign => by
          refine noSign (@endsInSign_drop_iff _ 1 |>.mp ?_).2
          exact (endsInSign_drop_iff.mp sign).2
        have := inductionHypothesis later token inLater
        simp only [List.length_cons, List.length_drop] at within this ⊢
        omega

/-- In a text that ends in a sign, a token reaches beyond the end. -/
theorem exists_beyond (scanned : Scanned scope position text tokens) (sign : EndsInSign text) :
    ∃ token ∈ tokens, position + text.length < token.stop := by
  induction scanned with
  | finish => simp [EndsInSign] at sign
  | @blank position first rest tokens skipped _ inductionHypothesis =>
      -- A sign is no blank, so there is something behind this one.
      have more : rest ≠ [] := by
        rintro rfl
        rcases sign with last | last <;> cases last <;> exact absurd skipped (by decide)
      have later : EndsInSign ((first :: rest).drop 1) :=
        endsInSign_drop_iff.mpr ⟨by simpa using List.length_pos_iff.mpr more, sign⟩
      obtain ⟨token, member, beyond⟩ := inductionHypothesis later
      refine ⟨token, member, ?_⟩
      simp only [List.length_cons]
      omega
  | @token position first rest found length tokens _ read _ inductionHypothesis =>
      have taken := taken_of_lexeme read
      have positive := taken.positive
      by_cases lone : IsLoneSign (first :: rest)
      · refine ⟨_, List.mem_cons_self, ?_⟩
        rw [taken.beyond lone]
        rcases lone with single | single <;> cases single <;> simp
      · have within := taken.within lone
        -- The last character is a sign, and signs only head a lexeme.
        have before : length < (first :: rest).length := by
          refine Nat.lt_of_le_of_ne within fun whole => ?_
          have plain := taken.plain
          rw [whole, List.take_length, List.tail_cons] at plain
          rcases rest with _ | ⟨second, more⟩
          · exact lone (endsInSign_singleton_iff.mp sign)
          · have ends : EndsInSign ((first :: second :: more).drop 1) :=
              endsInSign_drop_iff.mpr ⟨by simp, sign⟩
            rcases ends with last | last
            · exact (plain _ (List.mem_of_getLast? last)).1 rfl
            · exact (plain _ (List.mem_of_getLast? last)).2 rfl
        have later : EndsInSign (rest.drop (length - 1)) := by
          have ends := endsInSign_drop_iff.mpr ⟨before, sign⟩
          rwa [← Nat.sub_add_cancel positive, List.drop_succ_cons] at ends
        obtain ⟨token, member, beyond⟩ := inductionHypothesis later
        refine ⟨token, List.mem_cons_of_mem _ member, ?_⟩
        simp only [List.length_cons, List.length_drop] at within beyond ⊢
        omega

end Lexer.Scanned

/-- Cut off at the end of the source, its tokens tile it. As they are, they tile every source but
those that end in a comparison sign of one character. -/
theorem tokenize_tiles {scope : Scope} {source : String} {tokens : List Token}
    (read : tokenize scope source = .ok tokens) :
    Tiles 0 source.toList (tokens.map (Token.cut source.length)) ∧
      (Tiles 0 source.toList tokens ↔ ¬EndsInSign source.toList) := by
  have scanned := Lexer.scan_eq_ok_iff.mp read
  have cut := scanned.tiles_cut (List.drop_zero (l := source.toList))
  rw [String.length_toList] at cut
  refine ⟨cut, ?_, ?_⟩
  · intro tiles sign
    obtain ⟨token, member, beyond⟩ := scanned.exists_beyond sign
    have := (tiles.covers token member).inside
    omega
  · intro noSign
    have uncut : tokens.map (Token.cut source.length) = tokens := by
      refine (List.map_congr_left fun token member => ?_).trans tokens.map_id
      have inside := scanned.stop_le noSign token member
      rw [Nat.zero_add, String.length_toList] at inside
      simp [Token.cut, Nat.min_eq_left inside]
    rwa [uncut] at cut

/-- The sign at the end of `1 >` reaches beyond it. -/
theorem not_tiles_trailingSign :
    ∃ tokens, tokenize {} "1 >" = .ok tokens ∧ ¬Tiles 0 "1 >".toList tokens := by
  have scans : (tokenize {} "1 >").isOk = true := by decide +kernel
  cases read : tokenize {} "1 >" with
  | error =>
      rw [read] at scans
      cases scans
  | ok tokens =>
      refine ⟨tokens, rfl, fun tiles => ?_⟩
      exact (tokenize_tiles read).2.mp tiles (.inr (by decide))

end Formulary
