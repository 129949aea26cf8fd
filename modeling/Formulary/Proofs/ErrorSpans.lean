import Mathlib
import Formulary.CommandLine
import Formulary.Proofs.Complaints
import Formulary.Proofs.Tiling

/-!
# Where compile errors point

A compile error blames a span of the source. It comes from the scanner, which blames the characters
that it cannot take, or from reading, which blames tokens. The tokens of a source tile it, so a span
of tokens lies in the source and is not empty, unless it is the place behind the last character.

The exception is that of the tiling: a sign `<` or `>` that is the last character of a source has a
span that goes one place too far, and so has an error that blames it. No error but that one starts
at the last character of such a source.
-/

namespace Formulary

/-- The span of an error lies in the source. It is empty only behind the last character, where there
is nothing to blame but the end. -/
structure CompileError.PointsInto (source : String) (error : CompileError) : Prop where
  ordered : error.start ≤ error.stop
  inside : error.stop ≤ source.length
  empty : error.start = error.stop → error.cause.found = "EOF" ∧ error.start = source.length

/-- An error whose span is cut off at a length. -/
def CompileError.cut (length : Nat) (error : CompileError) : CompileError :=
  { error with stop := min error.stop length }

/-- An error blames the last character of a source, which is a sign. -/
def CompileError.BlamesLastSign (source : String) (error : CompileError) : Prop :=
  EndsInSign source.toList ∧ error.start + 1 = source.length

/-! ## Errors of the scanner -/

namespace Lexer

/-- A scan blames at least one character of the source, and the first of those is no sign. -/
structure Blames (source : List Char) (error : CompileError) : Prop where
  nonempty : error.start < error.stop
  inside : error.stop ≤ source.length
  noSign : source[error.start]? ≠ some '<' ∧ source[error.start]? ≠ some '>'

variable {scope : Scope} {position : Nat} {source text : List Char} {error : CompileError}

theorem blames_of_lexeme {first : Char} {rest : List Char}
    (here : source.drop position = first :: rest)
    (failed : lexeme scope position first rest = .error error) : Blames source error := by
  have size : source.length = position + (rest.length + 1) := by
    have := congrArg List.length here
    simp at this
    omega
  have atFirst : source[position]? = some first := by
    rw [← List.head?_drop, here, List.head?_cons]
  have blames : error.start = position → position < error.stop → error.stop ≤ source.length →
      symbol? (first :: rest) = none → Blames source error := by
    intro start nonempty inside noSymbol
    refine ⟨start ▸ nonempty, inside, ?_⟩
    rw [start, atFirst]
    constructor <;> rintro ⟨rfl⟩ <;> simp only [symbol?] at noSymbol <;> split at noSymbol <;>
      simp_all
  simp only [lexeme] at failed
  split at failed
  case h_1 => cases failed
  case h_2 noSymbol =>
      split at failed
      case isTrue =>
          split at failed
          case h_1 => cases failed
          case h_2 length malformed =>
              obtain ⟨positive, fits⟩ := length_of_malformed (List.cons_ne_nil _ _) malformed
              cases failed
              refine blames rfl ?_ ?_ noSymbol
              · simpa using positive
              · simpa [size] using fits
      case isFalse =>
          split at failed
          case isTrue =>
              split at failed
              case h_1 => cases failed
              case h_2 =>
                  have fits := (List.takeWhile_prefix (l := rest) continuesName).length_le
                  cases failed
                  refine blames rfl ?_ ?_ noSymbol
                  · simp
                  · simpa [size] using fits
          case isFalse =>
              cases failed
              exact blames rfl (Nat.lt_succ_self _) (by simp [size]) noSymbol

/-- Where a scan fails, it blames characters of the source. -/
theorem blames_of_scan (here : source.drop position = text)
    (failed : scan scope position text = .error error) : Blames source error := by
  fun_induction scan scope position text with
  | case1 => cases failed
  | case2 position first rest skipped inductionHypothesis =>
      refine inductionHypothesis ?_ failed
      rw [← List.drop_drop, here, List.drop_one, List.tail_cons]
  | case3 position first rest visible cause read =>
      cases failed
      exact blames_of_lexeme here read
  | case4 position first rest visible found length read cause ran inductionHypothesis =>
      cases failed
      refine inductionHypothesis ?_ ran
      obtain ⟨more, rfl⟩ : ∃ more, length = more + 1 :=
        ⟨length - 1, (Nat.sub_add_cancel (taken_of_lexeme read).positive).symm⟩
      rw [← List.drop_drop, here, Nat.add_sub_cancel, List.drop_succ_cons]
  | case5 => cases failed

/-! ## Tokens at the end of a source -/

/-- A token reaches beyond the source exactly when it is the sign that a source ends in. -/
theorem Scanned.beyond_iff {tokens : List Token} (scanned : Scanned scope position text tokens)
    (here : source.drop position = text) {token : Token} (member : token ∈ tokens) :
    (source.length < token.stop ↔ EndsInSign source ∧ token.start + 1 = source.length) ∧
      (source.length < token.stop → ∃ operator, token.kind = .comparison operator) := by
  induction scanned with
  | finish => cases member
  | @blank position first rest tokens _ _ inductionHypothesis =>
      refine inductionHypothesis ?_ member
      rw [← List.drop_drop, here, List.drop_one, List.tail_cons]
  | @token position first rest found length tokens _ read _ inductionHypothesis =>
      have taken := taken_of_lexeme read
      rcases List.mem_cons.mp member with rfl | later
      · dsimp only
        have size : source.length = position + (rest.length + 1) := by
          have := congrArg List.length here
          simp at this
          omega
        have ends : EndsInSign (first :: rest) ↔ EndsInSign source := by
          rw [← here, endsInSign_drop_iff]
          exact and_iff_right (by omega)
        by_cases lone : IsLoneSign (first :: rest)
        · have whole := taken.beyond lone
          have last : rest = [] := by rcases lone with single | single <;> cases single <;> rfl
          subst last whole
          simp only [List.length_nil] at size
          refine ⟨⟨fun _ => ⟨ends.mp (endsInSign_of_lone lone), by omega⟩, fun _ => by omega⟩,
            fun _ => ?_⟩
          rcases lone with single | single <;> cases single <;> cases read <;> exact ⟨_, rfl⟩
        · have within := taken.within lone
          rw [List.length_cons] at within
          refine ⟨⟨fun beyond => by omega, fun ⟨sign, last⟩ => ?_⟩, fun beyond => by omega⟩
          have alone : rest = [] := List.eq_nil_of_length_eq_zero (by omega)
          subst alone
          exact absurd (endsInSign_singleton_iff.mp (ends.mpr sign)) lone
      · refine inductionHypothesis ?_ later
        obtain ⟨more, rfl⟩ : ∃ more, length = more + 1 :=
          ⟨length - 1, (Nat.sub_add_cancel taken.positive).symm⟩
        rw [← List.drop_drop, here, Nat.add_sub_cancel, List.drop_succ_cons]

end Lexer

/-! ## Errors that blame tokens -/

section Tokens

open Expression (Objection)

variable {scope : Scope} {source : String} {tokens : List Token} {error : CompileError}

/-- The span of an error, cut off at the end of the source, points into it. As it is it goes beyond
the end only where the error blames the last sign. -/
structure CompileError.Located (source : String) (error : CompileError) : Prop where
  cut : (error.cut source.length).PointsInto source
  beyond_iff : source.length < error.stop ↔ error.BlamesLastSign source

/-- An error that blames a token, or the end of the source. -/
theorem located_of_token (scanned : Lexer.Scanned scope 0 source.toList tokens) {blamed : Token}
    (met : blamed ∈ tokens ++ [Token.finish source.length]) {cause : Cause}
    (found : cause.found = blamed.describe) :
    (CompileError.atToken cause blamed).Located source := by
  rcases List.mem_append.mp met with inside | last
  · have tiles := scanned.tiles_cut (List.drop_zero (l := source.toList))
    have covers := tiles.covers _ (List.mem_map_of_mem inside)
    have nonempty := covers.nonempty
    have fits := covers.inside
    have beyond := (scanned.beyond_iff List.drop_zero inside).1
    rw [String.length_toList] at nonempty fits beyond
    refine ⟨⟨Nat.le_of_lt nonempty, fits, fun empty => ?_⟩, beyond⟩
    exact absurd empty (Nat.ne_of_lt nonempty)
  · obtain rfl := List.mem_singleton.mp last
    refine ⟨⟨?_, Nat.min_le_right _ _, fun _ => ⟨found, rfl⟩⟩, ?_⟩
    · simp [CompileError.cut, CompileError.atToken, Token.finish]
    · simp [CompileError.BlamesLastSign, CompileError.atToken, Token.finish]

/-- A token of another kind than the end of the source is one of those before it. -/
theorem mem_of_kind_ne {token : Token} (met : token ∈ tokens ++ [Token.finish source.length])
    (other : token.kind ≠ .finish) : token ∈ tokens := by
  rcases List.mem_append.mp met with inside | last
  · exact inside
  · rw [List.mem_singleton.mp last] at other
    exact absurd rfl other

/-- An error that blames a call from the name of the function to the closing parenthesis. -/
theorem located_of_call (scanned : Lexer.Scanned scope 0 source.toList tokens) {name close : Token}
    (met : [name, close].Sublist (tokens ++ [Token.finish source.length]))
    (calls : name.kind = .function) (closes : close.kind = .rightParen) (cause : Cause) :
    (CompileError.mk cause name.start close.stop).Located source := by
  have named := mem_of_kind_ne (met.subset List.mem_cons_self) (by simp [calls])
  have closed := mem_of_kind_ne (met.subset (.tail _ List.mem_cons_self)) (by simp [closes])
  have tiles := scanned.tiles_cut (List.drop_zero (l := source.toList))
  have start := (tiles.covers _ (List.mem_map_of_mem named)).nonempty
  have stop := (tiles.covers _ (List.mem_map_of_mem closed)).nonempty
  have between : (name.cut source.toList.length).stop ≤ close.start := by
    have cuts := met.map (Token.cut source.toList.length)
    rw [List.map_append, List.map_singleton, String.length_toList] at cuts
    have finish : (Token.finish source.length).cut source.length = Token.finish source.length := by
      simp [Token.cut, Token.finish]
    rw [finish] at cuts
    have ordered := tiles.ordered
    rw [String.length_toList] at ordered ⊢
    exact (List.pairwise_cons.mp (ordered.sublist cuts)).1 (close.cut _) List.mem_cons_self
  -- The last sign of a source is no parenthesis.
  have inside : close.stop ≤ source.length := by
    by_contra beyond
    rw [Nat.not_le, ← String.length_toList] at beyond
    obtain ⟨operator, compares⟩ := (scanned.beyond_iff List.drop_zero closed).2 beyond
    rw [closes] at compares
    cases compares
  simp only [Token.cut, String.length_toList] at start stop between
  refine ⟨⟨?_, Nat.min_le_right _ _, fun empty => ?_⟩, ?_⟩
  · simp only [CompileError.cut]
    omega
  · simp only [CompileError.cut] at empty
    omega
  · simp only [CompileError.BlamesLastSign]
    omega

theorem located_of_objection (scanned : Lexer.Scanned scope 0 source.toList tokens)
    (objection : Objection (tokens ++ [Token.finish source.length]) error) :
    error.Located source := by
  cases objection with
  | missing settled | trailing settled => exact located_of_token scanned settled.mem rfl
  | noOperand place => exact located_of_token scanned (place.subset List.mem_cons_self) rfl
  | wideOperand met | wideDivisor met => exact located_of_token scanned met rfl
  | wrongArity met calls closes other => exact located_of_call scanned met calls closes _

/-- An error that blames what cannot be scanned. -/
theorem located_of_blames (blames : Lexer.Blames source.toList error) : error.Located source := by
  have nonempty := blames.nonempty
  have inside := blames.inside
  rw [String.length_toList] at inside
  refine ⟨⟨?_, Nat.min_le_right _ _, fun empty => ?_⟩, ?_⟩
  · simp only [CompileError.cut]
    omega
  · simp only [CompileError.cut] at empty
    omega
  · refine ⟨fun beyond => by omega, fun ⟨sign, last⟩ => ?_⟩
    have place : source.toList.length - 1 = error.start := by
      rw [String.length_toList]
      omega
    rw [EndsInSign, List.getLast?_eq_getElem?, place] at sign
    exact absurd sign (not_or.mpr blames.noSign)

/-- Wherever a text does not compile, the error is located in it. -/
theorem located_of_compile
    (failed : compile scope (.text source) = .error (.source (.compile error))) :
    error.Located source := by
  rcases objection_of_read (unread_of_compileText failed) with scanned | ⟨tokens, scanned, objects⟩
  · exact located_of_blames (Lexer.blames_of_scan List.drop_zero scanned)
  · exact located_of_objection (Lexer.scan_eq_ok_iff.mp scanned) objects

end Tokens

/-! ## The line of marks -/

/-- A line of marks underlines a span: under the characters of the span there are marks, before them
blanks, and nothing after them. The empty span has a mark under the place behind it. -/
structure CompileError.Underlined (error : CompileError) (marks : String) : Prop where
  blank : ∀ place < error.start, marks.toList[place]? = some ' '
  marked_iff : ∀ place, marks.toList[place]? = some '^' ↔
    error.start ≤ place ∧ (place < error.stop ∨ place = error.start)
  length_eq : marks.length = max error.stop (error.start + 1)

theorem CompileError.underlined_underline (error : CompileError) :
    error.Underlined (CommandLine.underline error) := by
  have marks : (CommandLine.underline error).toList =
      List.replicate error.start ' ' ++ List.replicate (max 1 (error.stop - error.start)) '^' := by
    rw [CommandLine.underline, String.toList_ofList]
  constructor
  · intro place before
    rw [marks, List.getElem?_append_left (by simpa using before)]
    simp [before]
  · intro place
    rw [marks]
    by_cases before : place < error.start
    · rw [List.getElem?_append_left (by simpa using before), List.getElem?_replicate,
        if_pos before]
      exact ⟨fun same => absurd (Option.some.inj same) (by decide),
        fun inside => absurd before (Nat.not_lt.mpr inside.1)⟩
    · rw [List.getElem?_append_right (by simpa using before)]
      simp only [List.length_replicate, List.getElem?_replicate, ite_eq_left_iff, reduceCtorEq,
        imp_false, not_not]
      omega
  · rw [← String.length_toList, marks]
    simp only [List.length_append, List.length_replicate]
    omega

namespace CommandLine

/-- What the command line prints about a source that does not compile: the error, the source, and
the line of marks with the same indentation. -/
def explanation (source : String) (error : CompileError) (marks : String) : Report where
  code := 2
  err := printed [s!"error: {error.describe}", s!"  {source}", s!"  {marks}"]

theorem run_uncompiled {arguments : List String} {request : Request} {formula : Formula}
    {source : String} {error : CompileError} (read : readArguments arguments = .ok request)
    (helpless : request.help = false) (given : request.source = some source)
    (prepared : request.formula = .ok formula)
    (failed : compile formula.scope (.text source) = .error (.source (.compile error))) :
    run arguments = .ok (explanation source error (underline error)) := by
  have parsed : formula.parse (.text source) =
      (formula.discard, some (.source (.compile error))) := by
    rw [Formula.parse, failed]
  simp only [run, read, helpless, given, carryOut, prepared, Outcome.ok_bind, parsed]
  rfl

end CommandLine

/-- Every compile error points into its source, unless it blames a sign that the source ends in; the
span then goes one place too far, and cut off at the end of the source it points into it as well.
What the command line prints about an error underlines its span. -/
theorem compile_error_pointsInto {scope : Scope} {source : String} {error : CompileError}
    (failed : compile scope (.text source) = .error (.source (.compile error))) :
    (error.cut source.length).PointsInto source ∧
    (error.PointsInto source ↔ ¬error.BlamesLastSign source) ∧
    ∀ arguments request formula, CommandLine.readArguments arguments = .ok request →
      request.help = false → request.source = some source → request.formula = .ok formula →
      formula.scope = scope → ∃ marks,
        CommandLine.run arguments = .ok (CommandLine.explanation source error marks) ∧
          error.Underlined marks := by
  obtain ⟨cut, beyond_iff⟩ := located_of_compile failed
  refine ⟨cut, ?_, ?_⟩
  · rw [← beyond_iff, Nat.not_lt]
    refine ⟨CompileError.PointsInto.inside, fun inside => ?_⟩
    have same : error.cut source.length = error := by
      rw [CompileError.cut, Nat.min_eq_left inside]
    rwa [same] at cut
  · rintro arguments request formula read helpless given prepared rfl
    exact ⟨CommandLine.underline error,
      CommandLine.run_uncompiled read helpless given prepared failed, error.underlined_underline⟩

/-- The span of a failure to compile, if it is a compile error. -/
def CompileFailure.span? : CompileFailure → Option (Nat × Nat)
  | .source (.compile error) => some (error.start, error.stop)
  | _ => none

theorem CompileFailure.span?_eq_some {failure : CompileFailure} {span : Nat × Nat}
    (found : failure.span? = some span) :
    ∃ error, failure = .source (.compile error) ∧ (error.start, error.stop) = span := by
  unfold span? at found
  split at found
  case h_1 error => exact ⟨error, rfl, Option.some.inj found⟩
  case h_2 => cases found

/-- In `2 + >` the sign is no operand, and the error that says so reaches beyond it: the command
line prints two marks for one character. -/
theorem not_pointsInto_trailingSign :
    let scope : Scope := { symbols := { constants := defaultConstants } }
    ∃ error, compile scope (.text "2 + >") = .error (.source (.compile error)) ∧
      (error.start, error.stop) = (4, 6) ∧ ¬error.PointsInto "2 + >" ∧
      ∃ marks, CommandLine.run ["2 + >"] = .ok (CommandLine.explanation "2 + >" error marks) ∧
        error.Underlined marks := by
  intro scope
  have blamed : ((compile scope (.text "2 + >")).mapError CompileFailure.span?).map (fun _ => ()) =
      .error (some (4, 6)) := by decide +kernel
  cases compiles : compile scope (.text "2 + >") with
  | ok compiled =>
      rw [compiles] at blamed
      cases blamed
  | error failure =>
      rw [compiles] at blamed
      obtain ⟨error, rfl, span⟩ := CompileFailure.span?_eq_some (Except.error.inj blamed)
      obtain ⟨_, points_iff, explained⟩ := compile_error_pointsInto compiles
      refine ⟨error, rfl, span, fun points => points_iff.mp points ⟨.inr (by decide), ?_⟩, ?_⟩
      · rw [show error.start = 4 from congrArg Prod.fst span]
        decide
      · exact explained ["2 + >"] { source := some "2 + >" } {} (by cbv) rfl rfl rfl rfl

end Formulary
