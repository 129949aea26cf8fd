import Formulary.Proofs.Complaints
import Formulary.Proofs.Origins
import Mathlib.Data.List.Nodup

/-!
# What was expected instead

An error that lists expected kinds of tokens comes from reading and blames one token of the stream.
One list goes for every place where an operand is missing, whatever level reads there, and it names
the word `not` too. A level that takes the word never misses an operand where it stands; the levels
below it do, and they are entered from an arithmetic sign or from a comparison. There, and nowhere
else, an error names the kind that it found among those that it would have accepted.
-/

namespace Formulary

/-! ## Kinds -/

/-- All kinds of tokens. -/
def Kind.all : List Kind :=
  [.plus, .minus, .star, .slash, .leftParen, .rightParen, .comma, .comparison .greater,
    .comparison .less, .comparison .greaterEqual, .comparison .lessEqual, .comparison .equal,
    .logical .and, .logical .or, .not, .number, .argument, .cell, .constant, .function, .finish]

theorem Kind.mem_all (kind : Kind) : kind ∈ all := by
  cases kind with
  | comparison operator => cases operator <;> decide
  | logical operator => cases operator <;> decide
  | _ => decide

/-- Different kinds have different names. -/
theorem Kind.label_injective : Function.Injective label := by
  have distinct : (all.map label).Nodup := by decide +kernel
  exact fun left right => List.inj_on_of_nodup_map distinct left.mem_all right.mem_all

/-- A scan does not find the end of the source. -/
theorem Scope.Offers.kind_ne_finish {scope : Scope} {found : Lexeme}
    (offers : scope.Offers found) : found.kind ≠ .finish := by
  cases offers with
  | symbol read =>
      unfold Lexer.symbol? at read
      split at read <;> cases read <;> nofun
  | literal value => nofun
  | name name resolved => cases Scope.names_of_resolve resolved <;> nofun

/-! ## Errors without expected kinds -/

theorem decodeBytes_expected {offset : Nat} {content : List UInt8} {error : CompileError}
    (failed : decodeBytes offset content = .error error) : error.cause.expected = [] := by
  induction content generalizing offset with
  | nil => cases failed
  | cons byte rest inductionHypothesis =>
      rw [decodeBytes] at failed
      split at failed
      case isTrue =>
          cases later : decodeBytes (offset + 1) rest with
          | error cause =>
              rw [later] at failed
              cases failed
              exact inductionHypothesis later
          | ok characters =>
              rw [later] at failed
              cases failed
      case isFalse =>
          cases failed
          rfl

/-- The bytes of a source are refused without asking for others. -/
theorem Source.read_expected {source : Source} {error : CompileError}
    (failed : source.read = .error (.compile error)) : error.cause.expected = [] := by
  cases source with
  | text content => cases failed
  | other typeName => cases failed
  | bytes content =>
      rw [read] at failed
      split at failed <;> cases failed
      case h_2 refused => exact decodeBytes_expected refused

namespace Lexer

variable {scope : Scope} {position : Nat} {error : CompileError}

theorem lexeme_expected {first : Char} {rest : List Char}
    (failed : lexeme scope position first rest = .error error) : error.cause.expected = [] := by
  simp only [lexeme] at failed
  split at failed
  case h_1 => cases failed
  case h_2 =>
      split at failed
      case isTrue =>
          split at failed <;> cases failed
          rfl
      case isFalse =>
          split at failed
          case isTrue =>
              split at failed <;> cases failed
              rfl
          case isFalse =>
              cases failed
              rfl

/-- The scanner does not say what it would have taken instead. -/
theorem scan_expected {text : List Char} (failed : scan scope position text = .error error) :
    error.cause.expected = [] := by
  fun_induction scan scope position text with
  | case1 => cases failed
  | case2 position first rest skipped inductionHypothesis => exact inductionHypothesis failed
  | case3 position first rest visible cause read =>
      cases failed
      exact lexeme_expected read
  | case4 position first rest visible found length read cause ran inductionHypothesis =>
      cases failed
      exact inductionHypothesis ran
  | case5 => cases failed

end Lexer

/-! ## Errors with expected kinds -/

namespace Expression

/-- An error that lists expected kinds, at a token of a stream. It names the kind of the token among
them if the token is the word `not` behind a sign, and otherwise it does not. -/
structure Misfit (stream : List Token) (error : CompileError) (before : List Token) (found : Token)
    (after : List Token) : Prop where
  place : before ++ found :: after = stream
  blamed : error = .unexpected found error.cause.expected
  listed_iff : found.kind.label ∈ error.cause.expected.map Kind.label ↔
    found.kind = .not ∧ ∃ last ∈ before.getLast?, last.kind.isSign = true

/-- The token in front of the ones that are left, by the tokens before them. -/
theorem Behind.getLast? {sign : Bool} {before after : List Token} {found : Token}
    (behind : Behind sign (before ++ found :: after) (found :: after)) :
    ∃ last ∈ before.getLast?, last.kind.isSign = sign := by
  obtain ⟨last, signed, front, place⟩ := behind
  have same : front ++ [last] = before := List.append_cancel_right (by simpa using place)
  exact ⟨last, by simp [← same], signed⟩

/-- A token behind something that was read in full, if a single other kind was asked for. -/
theorem Misfit.of_settled {stream after : List Token} {found : Token} {kind : Kind}
    (settled : Behind false stream (found :: after)) (other : found.kind ≠ kind) :
    ∃ before, Misfit stream (.unexpected found [kind]) before found after := by
  obtain ⟨before, rfl⟩ := settled.suffix
  refine ⟨before, rfl, rfl, ?_⟩
  constructor
  · intro listed
    exact absurd (Kind.label_injective (List.mem_singleton.mp listed)) other
  · rintro ⟨-, last, isLast, sign⟩
    obtain ⟨same, isSame, unsigned⟩ := settled.getLast?
    obtain rfl := Option.mem_unique isLast isSame
    rw [sign] at unsigned
    cases unsigned

/-- Every objection that lists expected kinds is to such a token. The end of the source is not
blamed for standing where only it may stand. -/
theorem Objection.misfit {tokens : List Token} {finish : Nat} {error : CompileError}
    (objection : Objection (tokens ++ [Token.finish finish]) error)
    (scanned : ∀ token ∈ tokens, token.kind ≠ .finish) (some : error.cause.expected ≠ []) :
    ∃ before found after, Misfit (tokens ++ [Token.finish finish]) error before found after := by
  cases objection with
  | missing settled other =>
      obtain ⟨before, misfit⟩ := Misfit.of_settled settled other
      exact ⟨before, _, _, misfit⟩
  | @trailing found next after settled =>
      have inside : found ∈ tokens := by
        obtain ⟨before, place⟩ := settled.suffix
        have front := congrArg List.dropLast place
        rw [List.dropLast_concat] at front
        simp [← front]
      obtain ⟨before, misfit⟩ := Misfit.of_settled settled (scanned found inside)
      exact ⟨before, _, _, misfit⟩
  | @noOperand found after place unfit =>
      obtain ⟨before, place⟩ := place
      rw [← place] at unfit
      refine ⟨before, found, after, place, rfl, ?_⟩
      constructor
      · intro listed
        have starts : found.kind ∈ primaryStart :=
          (List.mem_map_of_injective Kind.label_injective).mp listed
        exact ⟨(unfit starts).1, (unfit starts).2.getLast?⟩
      · rintro ⟨negated, -⟩
        refine List.mem_map_of_mem ?_
        rw [negated]
        exact show Kind.not ∈ primaryStart by decide
  | wideOperand | wideDivisor | wrongArity => exact absurd rfl some

end Expression

/-- A compile error that lists expected kinds blames one token of the source, or its end, and says
so. The kind of that token is among the expected ones exactly when it is the word `not` and the
token in front of it is an arithmetic sign or a comparison. -/
theorem expected_kinds_listed_iff {scope : Scope} {source : Source} {error : CompileError}
    (failed : compile scope source = .error (.source (.compile error)))
    (some : error.cause.expected ≠ []) :
    ∃ text tokens before found after,
      source.read = .ok text ∧ tokenize scope text = .ok tokens ∧
      before ++ found :: after = tokens ++ [Token.finish text.length] ∧
      error = .unexpected found error.cause.expected ∧ error.cause.found = found.describe ∧
      (found.kind.label ∈ error.cause.expected.map Kind.label ↔
        found.kind = .not ∧ ∃ last ∈ before.getLast?, last.kind.isSign = true) := by
  unfold compile at failed
  cases read : source.read with
  | error refused =>
      rw [read] at failed
      cases failed
      exact absurd (Source.read_expected read) some
  | ok text =>
      rw [read] at failed
      rcases objection_of_read (unread_of_compileText failed) with
        scanned | ⟨tokens, scanned, objection⟩
      · exact absurd (Lexer.scan_expected scanned) some
      · have offered := Lexer.offers_of_scanned (Lexer.scan_eq_ok_iff.mp scanned)
        obtain ⟨before, found, after, misfit⟩ := objection.misfit
          (fun token member => (offered token member).kind_ne_finish) some
        exact ⟨text, tokens, before, found, after, rfl, scanned, misfit.place, misfit.blamed,
          by rw [misfit.blamed]; rfl, misfit.listed_iff⟩

/-- The kind of the token that cannot stand where it does, and the kinds that were expected. -/
def CompileFailure.misfit? : CompileFailure → Option (Kind × List Kind)
  | .source (.compile ⟨.unexpectedToken found expected, _, _⟩) => some (found.kind, expected)
  | _ => none

theorem CompileFailure.misfit?_eq_some {failure : CompileFailure} {met : Kind × List Kind}
    (misfit : failure.misfit? = some met) :
    ∃ error, failure = .source (.compile error) ∧ error.cause.expected = met.2 := by
  unfold misfit? at misfit
  split at misfit
  case h_1 => cases misfit; exact ⟨_, rfl, rfl⟩
  case h_2 => cases misfit

/-- In `1 + not 1` the word stands behind a sign, and the error that finds it there expects it. -/
theorem expected_kinds_listed_negatedSummand :
    ∃ error found, compile {} (.text "1 + not 1") = .error (.source (.compile error)) ∧
      error = .unexpected found Expression.primaryStart ∧ found.kind = .not ∧
      found.kind.label ∈ error.cause.expected.map Kind.label ∧
      ∃ tokens before after, tokenize {} "1 + not 1" = .ok tokens ∧
        before ++ found :: after = tokens ++ [Token.finish 9] ∧
        ∃ last ∈ before.getLast?, last.kind.isSign = true := by
  have met : ((compile {} (.text "1 + not 1")).mapError CompileFailure.misfit?).map (fun _ => ()) =
      .error (some (.not, Expression.primaryStart)) := by decide +kernel
  cases compiles : compile {} (.text "1 + not 1") with
  | ok compiled =>
      rw [compiles] at met
      cases met
  | error failure =>
      rw [compiles] at met
      have misfit := Except.error.inj met
      obtain ⟨error, rfl, expected⟩ := CompileFailure.misfit?_eq_some misfit
      have some : error.cause.expected ≠ [] := by
        rw [expected]
        decide
      obtain ⟨text, tokens, before, found, after, read, scanned, place, blamed, _, listed_iff⟩ :=
        expected_kinds_listed_iff compiles some
      cases read
      rw [expected] at blamed listed_iff
      have negated : found.kind = .not := by
        rw [blamed] at misfit
        exact congrArg Prod.fst (Option.some.inj misfit)
      have listed : found.kind.label ∈ Expression.primaryStart.map Kind.label := by
        rw [negated]
        exact List.mem_map_of_mem (by decide)
      refine ⟨error, found, rfl, blamed, negated, ?_, tokens, before, after, scanned, place,
        (listed_iff.mp listed).2⟩
      rw [expected]
      exact listed

end Formulary
