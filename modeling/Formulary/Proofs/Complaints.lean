import Formulary.Compile
import Formulary.Proofs.Grammar.Reading

/-!
# What reading complains about

Reading goes forward through a stream of tokens, of which the last is the end of the source, and it
never goes further: what a level leaves is a place in the stream, and an error blames tokens of the
stream. `Complaint` lists the errors by the places that raise them. `Objection` says besides what is
known of the tokens that are blamed; `Foreseen` says of an outcome that it is of this kind, and
there is one lemma for each function that reads.

Two facts about places are carried along. What was read in full never ends in a sign that still
waits for its operand. And the levels that do not take the word `not` meet it behind such a sign
only, since a level that takes it comes first wherever else an operand may start.
-/

namespace Formulary

/-- The kinds of the signs behind which an operand stands that does not start with the word `not`:
the arithmetic signs and the comparisons. -/
def Kind.isSign : Kind → Bool
  | plus | minus | star | slash | comparison _ => true
  | _ => false

namespace Expression

open Grammar (expect_eq_ok_iff requireScalar_eq_ok_iff)

/-- The errors that reading the tokens of a stream can end in. -/
inductive Complaint (stream : List Token) : CompileError → Prop
  | missing {found : Token} {kind : Kind} (met : found ∈ stream) :
      Complaint stream (.unexpected found [kind])
  | noOperand {found : Token} (met : found ∈ stream) :
      Complaint stream (.unexpected found primaryStart)
  | wideOperand {role : Role} {width : Nat} {blamed : Token} (met : blamed ∈ stream)
      (wide : width ≠ 1) :
      Complaint stream (.atToken (.vectorOperand role width blamed) blamed)
  | wideDivisor {width : Nat} {slash : Token} (met : slash ∈ stream) (wide : width ≠ 1) :
      Complaint stream (.atToken (.vectorDivisor width slash) slash)
  | wrongArity {function : Builtin} {given : Nat} {name close : Token}
      (met : [name, close].Sublist stream) (other : given ≠ function.arity) :
      Complaint stream ⟨.wrongArity function given, name.start, close.stop⟩

/-- Tokens that are left of a stream stand behind another, which is a sign or not. -/
def Behind (sign : Bool) (stream tokens : List Token) : Prop :=
  ∃ last : Token, last.kind.isSign = sign ∧ last :: tokens <:+ stream

/-- A complaint together with what was seen of the tokens that it blames. A kind that was asked for
is not the one that was met, nor was it asked for behind a sign. Where an operand is missing, of all
the kinds that may stand at the start of one only the word `not` can be met, behind a sign: it
starts an operand of its own level only. -/
inductive Objection (stream : List Token) : CompileError → Prop
  | missing {found : Token} {after : List Token} {kind : Kind}
      (settled : Behind false stream (found :: after)) (other : found.kind ≠ kind) :
      Objection stream (.unexpected found [kind])
  | trailing {found next : Token} {after : List Token}
      (settled : Behind false stream (found :: next :: after)) :
      Objection stream (.unexpected found [.finish])
  | noOperand {found : Token} {after : List Token} (place : found :: after <:+ stream)
      (unfit : found.kind ∈ primaryStart →
        found.kind = .not ∧ Behind true stream (found :: after)) :
      Objection stream (.unexpected found primaryStart)
  | wideOperand {role : Role} {width : Nat} {blamed : Token} (met : blamed ∈ stream)
      (wide : width ≠ 1) :
      Objection stream (.atToken (.vectorOperand role width blamed) blamed)
  | wideDivisor {width : Nat} {slash : Token} (met : slash ∈ stream) (wide : width ≠ 1) :
      Objection stream (.atToken (.vectorDivisor width slash) slash)
  | wrongArity {function : Builtin} {given : Nat} {name close : Token}
      (met : [name, close].Sublist stream) (calls : name.kind = .function)
      (closes : close.kind = .rightParen) (other : given ≠ function.arity) :
      Objection stream ⟨.wrongArity function given, name.start, close.stop⟩

theorem Behind.suffix {sign : Bool} {stream tokens : List Token}
    (behind : Behind sign stream tokens) : tokens <:+ stream := by
  obtain ⟨last, _, place⟩ := behind
  exact (List.suffix_cons last tokens).trans place

/-- The token that stands behind another is one of the stream. -/
theorem Behind.mem {sign : Bool} {stream after : List Token} {found : Token}
    (behind : Behind sign stream (found :: after)) : found ∈ stream :=
  behind.suffix.subset List.mem_cons_self

theorem Objection.complaint {stream : List Token} {error : CompileError}
    (objection : Objection stream error) : Complaint stream error := by
  cases objection with
  | missing settled other => exact .missing settled.mem
  | trailing settled => exact .missing settled.mem
  | noOperand place unfit => exact .noOperand (place.subset List.mem_cons_self)
  | wideOperand met wide => exact .wideOperand met wide
  | wideDivisor met wide => exact .wideDivisor met wide
  | wrongArity met calls closes other => exact .wrongArity met other

/-- Tokens that are left, with the end of the source behind them, are a last part of a stream. -/
def Within (finish : Nat) (stream tokens : List Token) : Prop :=
  tokens ++ [Token.finish finish] <:+ stream

/-- What is left stands behind something that was read in full. -/
def Settled (finish : Nat) (stream tokens : List Token) : Prop :=
  Behind false stream (tokens ++ [Token.finish finish])

/-- The word `not` is the first of the tokens that are left behind a sign only. -/
def NegatedBehindSign (finish : Nat) (stream tokens : List Token) : Prop :=
  (Token.current finish tokens).kind = .not →
    Behind true stream (tokens ++ [Token.finish finish])

/-- An outcome of reading is a result of which something holds and a place in the stream behind what
was read, or an objection to tokens of the stream. -/
def Foreseen {α : Type} {bounded : List Token → Prop} (finish : Nat) (stream : List Token)
    (holds : α → Prop) : Except CompileError (α × { rest : List Token // bounded rest }) → Prop
  | .ok (found, rest) => holds found ∧ Settled finish stream rest
  | .error error => Objection stream error

variable {finish : Nat} {stream tokens : List Token}

/-! ## Places in the stream -/

theorem Within.current_mem (inside : Within finish stream tokens) :
    Token.current finish tokens ∈ stream := by
  refine inside.subset ?_
  cases tokens <;> simp [Token.current]

theorem Within.tail {token : Token} (inside : Within finish stream (token :: tokens)) :
    Within finish stream tokens :=
  (List.suffix_cons token _).trans inside

theorem Settled.within (settled : Settled finish stream tokens) : Within finish stream tokens :=
  Behind.suffix settled

/-- A token is a sign if its lexeme is one. -/
theorem isSign_of_lexeme {token : Token} {lexeme : Lexeme} (same : token.lexeme = lexeme) :
    token.kind.isSign = lexeme.kind.isSign := by
  rw [Token.kind, same]

/-- What follows a token that is no sign stands behind something that was read in full. -/
theorem Within.settled {token : Token} (inside : Within finish stream (token :: tokens))
    (unsigned : token.kind.isSign = false) : Settled finish stream tokens :=
  ⟨token, unsigned, inside⟩

theorem Within.negatedBehindSign {token : Token} (inside : Within finish stream (token :: tokens))
    (sign : token.kind.isSign = true) : NegatedBehindSign finish stream tokens :=
  fun _ => ⟨token, sign, inside⟩

/-- Where another token than the word is the first. -/
theorem negatedBehindSign_of_ne {token : Token} (other : token.lexeme = .not → False) :
    NegatedBehindSign finish stream (token :: tokens) := by
  intro same
  change token.lexeme.kind = .not at same
  cases found : token.lexeme <;> simp_all [Lexeme.kind]

/-- A token that was passed stands before the one that was reached. -/
theorem Within.passed {token reached : Token} {after rest : List Token}
    (inside : Within finish stream (token :: after))
    (later : Within finish stream (reached :: rest))
    (noMore : (reached :: rest).length ≤ after.length) : [token, reached].Sublist stream := by
  have part : reached :: rest ++ [Token.finish finish] <:+ after ++ [Token.finish finish] :=
    List.suffix_of_suffix_length_le later inside.tail (by simpa using noMore)
  have met : reached ∈ after ++ [Token.finish finish] := part.subset List.mem_cons_self
  exact (List.Sublist.cons_cons token (List.singleton_sublist.mpr met)).trans inside.sublist

/-- A token other than the sign is not of its kind. -/
theorem kind_ne_minus {token : Token} (unsigned : token.lexeme = .minus → False) :
    token.kind ≠ .minus := by
  intro same
  cases found : token.lexeme <;> simp_all [Token.kind, Lexeme.kind]

/-! ## Outcomes -/

section Sequences

variable {α β γ : Type} {firstBound nextBound : List Token → Prop} {holds : α → Prop}
  {holdsNext : β → Prop}

/-- Reading goes on from what was left. -/
theorem Foreseen.bind {first : Except CompileError (α × { rest : List Token // firstBound rest })}
    {next : α × { rest : List Token // firstBound rest } →
      Except CompileError (β × { rest : List Token // nextBound rest })}
    (foreseen : Foreseen finish stream holds first)
    (continues : ∀ found rest bound, first = .ok (found, ⟨rest, bound⟩) → holds found →
      Settled finish stream rest → Foreseen finish stream holdsNext (next (found, ⟨rest, bound⟩))) :
    Foreseen finish stream holdsNext (first >>= next) := by
  cases first with
  | error error => exact foreseen
  | ok result =>
      obtain ⟨found, rest, bound⟩ := result
      exact continues found rest bound rfl foreseen.1 foreseen.2

/-- Reading goes on after a check. -/
theorem Foreseen.check {check : Except CompileError γ}
    {next : γ → Except CompileError (β × { rest : List Token // nextBound rest })}
    (raises : ∀ error, check = .error error → Objection stream error)
    (continues : ∀ passed, Foreseen finish stream holdsNext (next passed)) :
    Foreseen finish stream holdsNext (check >>= next) := by
  cases check with
  | error error => exact raises error rfl
  | ok passed => exact continues passed

end Sequences

/-- The check for a scalar blames the token that it is given. -/
theorem objection_of_requireScalar {operand : Expression} {blamed : Token} {role : Role}
    (met : blamed ∈ stream) {error : CompileError}
    (raised : requireScalar operand blamed role = .error error) : Objection stream error := by
  unfold requireScalar at raised
  split at raised
  case isTrue => cases raised
  case isFalse wide =>
      cases raised
      exact .wideOperand met wide

theorem foreseen_expect (kind : Kind) (sought : kind ≠ .finish) (unsigned : kind.isSign = false)
    (settled : Settled finish stream tokens) :
    Foreseen finish stream (fun _ => True) (expect finish kind tokens) := by
  cases tokens with
  | nil => exact .missing settled sought.symm
  | cons token rest =>
      rw [expect]
      split
      case isTrue same => exact ⟨trivial, settled.within.settled (same ▸ unsigned)⟩
      case isFalse other => exact .missing settled other

/-- The items of a list start at tokens of a stream. -/
def Items.StartIn (stream : List Token) (items : List Item) : Prop :=
  ∀ item ∈ items, item.first ∈ stream

theorem objection_of_forM {function : Builtin} {items : List Item}
    (met : Items.StartIn stream items) {error : CompileError}
    (raised : (items.forM fun item =>
      requireScalar item.expression item.first (.argument function)) = .error error) :
    Objection stream error := by
  induction items with
  | nil => cases raised
  | cons item rest inductionHypothesis =>
      simp only [List.forM_eq_forM, List.forM_cons] at raised inductionHypothesis
      cases checked : requireScalar item.expression item.first (.argument function) with
      | error cause =>
          rw [checked] at raised
          cases raised
          exact objection_of_requireScalar (met item List.mem_cons_self) checked
      | ok passed =>
          rw [checked] at raised
          exact inductionHypothesis (fun other member => met other (.tail item member)) raised

/-- A call complains about the number of its items, or about an item that is no scalar. -/
theorem objection_of_makeCall {function : Builtin} {name close : Token} {items : Items}
    (span : [name, close].Sublist stream) (calls : name.kind = .function)
    (closes : close.kind = .rightParen) (met : Items.StartIn stream (items.head :: items.tail))
    {error : CompileError} (raised : makeCall function name close items = .error error) :
    Objection stream error := by
  unfold makeCall at raised
  by_cases matching : items.count = function.arity
  · simp only [ne_eq, matching, not_true_eq_false, if_false] at raised
    cases checked : (items.head :: items.tail).forM fun item =>
        requireScalar item.expression item.first (.argument function) with
    | error cause =>
        rw [checked] at raised
        cases raised
        exact objection_of_forM met checked
    | ok passed =>
        rw [checked] at raised
        cases raised
  · simp only [ne_eq, matching, not_false_eq_true, if_true] at raised
    cases raised
    exact .wrongArity span calls closes matching

/-! ## The levels -/

mutual

theorem foreseen_expression {tokens : List Token} (inside : Within finish stream tokens) :
    Foreseen finish stream (fun _ => True) (parseExpression finish tokens) := by
  rw [parseExpression]
  refine (foreseen_negation inside).bind fun left rest fewer _ _ later => ?_
  exact (foreseen_logicalTail inside.current_mem left later).bind
    fun _ _ _ _ _ last => ⟨trivial, last⟩
termination_by 9 * tokens.length + 7

theorem foreseen_logicalTail {start : Token} (started : start ∈ stream) (left : Expression)
    {tokens : List Token} (settled : Settled finish stream tokens) :
    Foreseen finish stream (fun _ => True) (parseLogicalTail finish start left tokens) := by
  match tokens, settled with
  | [], settled =>
      rw [parseLogicalTail]
      exact ⟨trivial, settled⟩
  | token :: after, settled =>
      have inside := settled.within
      rw [parseLogicalTail]
      split
      case h_1 operator _ =>
          refine .check (fun _ => objection_of_requireScalar started) fun _ => ?_
          refine (foreseen_negation inside.tail).bind fun right rest fewer _ _ later => ?_
          refine .check (fun _ => objection_of_requireScalar inside.tail.current_mem) fun _ => ?_
          exact (foreseen_logicalTail started _ later).bind fun _ _ _ _ _ last => ⟨trivial, last⟩
      case h_2 => exact ⟨trivial, settled⟩
termination_by 9 * tokens.length
decreasing_by all_goals simp only [List.length_cons]; omega

theorem foreseen_negation {tokens : List Token} (inside : Within finish stream tokens) :
    Foreseen finish stream (fun _ => True) (parseNegation finish tokens) := by
  match tokens, inside with
  | [], inside =>
      rw [parseNegation]
      exact foreseen_comparison nofun inside
  | token :: after, inside =>
      rw [parseNegation]
      split
      case h_1 =>
          refine (foreseen_negation inside.tail).bind fun operand rest fewer _ _ later => ?_
          refine .check (fun _ => objection_of_requireScalar inside.tail.current_mem) fun _ => ?_
          exact ⟨trivial, later⟩
      case h_2 other => exact foreseen_comparison (negatedBehindSign_of_ne other) inside
termination_by 9 * tokens.length + 6
decreasing_by all_goals simp only [List.length_cons, List.length_nil]; omega

theorem foreseen_comparison {tokens : List Token} (fits : NegatedBehindSign finish stream tokens)
    (inside : Within finish stream tokens) :
    Foreseen finish stream (fun _ => True) (parseComparison finish tokens) := by
  rw [parseComparison]
  refine (foreseen_additive fits inside).bind fun left rest fewer _ _ later => ?_
  exact (foreseen_comparisonTail inside.current_mem left later).bind
    fun _ _ _ _ _ last => ⟨trivial, last⟩
termination_by 9 * tokens.length + 5

theorem foreseen_comparisonTail {start : Token} (started : start ∈ stream) (left : Expression)
    {tokens : List Token} (settled : Settled finish stream tokens) :
    Foreseen finish stream (fun _ => True) (parseComparisonTail finish start left tokens) := by
  match tokens, settled with
  | [], settled =>
      rw [parseComparisonTail]
      exact ⟨trivial, settled⟩
  | token :: after, settled =>
      have inside := settled.within
      rw [parseComparisonTail]
      split
      case h_1 operator named =>
          have fits := inside.negatedBehindSign (isSign_of_lexeme named)
          refine .check (fun _ => objection_of_requireScalar started) fun _ => ?_
          refine (foreseen_additive fits inside.tail).bind fun right rest fewer _ _ later => ?_
          refine .check (fun _ => objection_of_requireScalar inside.tail.current_mem) fun _ => ?_
          exact (foreseen_comparisonTail started _ later).bind
            fun _ _ _ _ _ last => ⟨trivial, last⟩
      case h_2 => exact ⟨trivial, settled⟩
termination_by 9 * tokens.length
decreasing_by all_goals simp only [List.length_cons]; omega

theorem foreseen_additive {tokens : List Token} (fits : NegatedBehindSign finish stream tokens)
    (inside : Within finish stream tokens) :
    Foreseen finish stream (fun _ => True) (parseAdditive finish tokens) := by
  rw [parseAdditive]
  refine (foreseen_term fits inside).bind fun left rest fewer _ _ later => ?_
  exact (foreseen_additiveTail left later).bind fun _ _ _ _ _ last => ⟨trivial, last⟩
termination_by 9 * tokens.length + 4

theorem foreseen_additiveTail (left : Expression) {tokens : List Token}
    (settled : Settled finish stream tokens) :
    Foreseen finish stream (fun _ => True) (parseAdditiveTail finish left tokens) := by
  match tokens, settled with
  | [], settled =>
      rw [parseAdditiveTail]
      exact ⟨trivial, settled⟩
  | token :: after, settled =>
      have inside := settled.within
      rw [parseAdditiveTail]
      split
      case h_1 named | h_2 named =>
          have fits := inside.negatedBehindSign (isSign_of_lexeme named)
          refine (foreseen_term fits inside.tail).bind fun right rest fewer _ _ later => ?_
          exact (foreseen_additiveTail _ later).bind fun _ _ _ _ _ last => ⟨trivial, last⟩
      case h_3 => exact ⟨trivial, settled⟩
termination_by 9 * tokens.length
decreasing_by all_goals simp only [List.length_cons]; omega

theorem foreseen_term {tokens : List Token} (fits : NegatedBehindSign finish stream tokens)
    (inside : Within finish stream tokens) :
    Foreseen finish stream (fun _ => True) (parseTerm finish tokens) := by
  rw [parseTerm]
  refine (foreseen_unary fits inside).bind fun left rest fewer _ _ later => ?_
  exact (foreseen_termTail left later).bind fun _ _ _ _ _ last => ⟨trivial, last⟩
termination_by 9 * tokens.length + 3

theorem foreseen_termTail (left : Expression) {tokens : List Token}
    (settled : Settled finish stream tokens) :
    Foreseen finish stream (fun _ => True) (parseTermTail finish left tokens) := by
  match tokens, settled with
  | [], settled =>
      rw [parseTermTail]
      exact ⟨trivial, settled⟩
  | token :: after, settled =>
      have inside := settled.within
      rw [parseTermTail]
      split
      case h_1 named =>
          have fits := inside.negatedBehindSign (isSign_of_lexeme named)
          refine (foreseen_unary fits inside.tail).bind fun right rest fewer _ _ later => ?_
          exact (foreseen_termTail _ later).bind fun _ _ _ _ _ last => ⟨trivial, last⟩
      case h_2 named =>
          have fits := inside.negatedBehindSign (isSign_of_lexeme named)
          refine (foreseen_unary fits inside.tail).bind fun right rest fewer _ _ later => ?_
          by_cases wide : right.width ≠ 1
          · simp only [if_pos wide]
            exact .wideDivisor inside.current_mem wide
          · simp only [if_neg wide]
            exact (foreseen_termTail _ later).bind fun _ _ _ _ _ last => ⟨trivial, last⟩
      case h_3 => exact ⟨trivial, settled⟩
termination_by 9 * tokens.length
decreasing_by all_goals simp only [List.length_cons]; omega

theorem foreseen_unary {tokens : List Token} (fits : NegatedBehindSign finish stream tokens)
    (inside : Within finish stream tokens) :
    Foreseen finish stream (fun _ => True) (parseUnary finish tokens) := by
  match tokens, fits, inside with
  | [], fits, inside =>
      rw [parseUnary]
      exact foreseen_primary nofun fits inside
  | token :: after, fits, inside =>
      rw [parseUnary]
      split
      case h_1 named =>
          have fitsAfter := inside.negatedBehindSign (isSign_of_lexeme named)
          exact (foreseen_unary fitsAfter inside.tail).bind
            fun _ _ _ _ _ later => ⟨trivial, later⟩
      case h_2 unsigned => exact foreseen_primary (kind_ne_minus unsigned) fits inside
termination_by 9 * tokens.length + 2
decreasing_by all_goals simp only [List.length_cons, List.length_nil]; omega

theorem foreseen_primary {tokens : List Token}
    (unsigned : (Token.current finish tokens).kind ≠ .minus)
    (fits : NegatedBehindSign finish stream tokens) (inside : Within finish stream tokens) :
    Foreseen finish stream (fun _ => True) (parsePrimary finish tokens) := by
  match tokens, unsigned, fits, inside with
  | [], _, _, inside =>
      rw [parsePrimary]
      exact .noOperand inside fun starts =>
        absurd starts (show Kind.finish ∉ primaryStart by decide)
  | token :: after, unsigned, fits, inside =>
      rw [parsePrimary]
      split
      case h_1 named | h_2 named | h_3 named | h_4 named =>
          exact ⟨trivial, inside.settled (isSign_of_lexeme named)⟩
      case h_5 function named =>
          have behindName := inside.settled (isSign_of_lexeme named)
          refine (foreseen_expect .leftParen nofun rfl behindName).bind
            fun _ inner fewerInner _ _ opened => ?_
          refine (foreseen_list opened.within).bind fun items rest fewer _ met later => ?_
          refine (foreseen_expect .rightParen nofun rfl later).bind
            fun close rest' _ closed _ last => ?_
          obtain ⟨closes, rfl⟩ := expect_eq_ok_iff.mp closed
          have span := inside.passed later.within (by simp only [List.length_cons] at *; omega)
          have calls : token.kind = .function := by rw [Token.kind, named]; rfl
          exact .check (fun _ => objection_of_makeCall span calls closes met)
            fun _ => ⟨trivial, last⟩
      case h_6 =>
          refine (foreseen_list inside.tail).bind fun items rest fewer _ _ later => ?_
          exact (foreseen_expect .rightParen nofun rfl later).bind
            fun _ _ _ _ _ last => ⟨trivial, last⟩
      case h_7 noNumber noConstant noCell noArgument noFunction noParen =>
          refine .noOperand inside fun starts => ?_
          have negated : token.kind = .not := by
            change token.lexeme.kind ≠ .minus at unsigned
            change token.lexeme.kind ∈ primaryStart at starts
            change token.lexeme.kind = .not
            cases same : token.lexeme <;> simp_all [Lexeme.kind, primaryStart]
          exact ⟨negated, fits negated⟩
termination_by 9 * tokens.length + 1
decreasing_by all_goals simp only [List.length_cons]; omega

theorem foreseen_list {tokens : List Token} (inside : Within finish stream tokens) :
    Foreseen finish stream (fun items => Items.StartIn stream (items.head :: items.tail))
      (parseList finish tokens) := by
  rw [parseList]
  refine (foreseen_expression inside).bind fun expression rest fewer _ _ later => ?_
  refine (foreseen_listTail later).bind fun tail _ _ _ met last => ⟨?_, last⟩
  exact List.forall_mem_cons.mpr ⟨inside.current_mem, met⟩
termination_by 9 * tokens.length + 8

theorem foreseen_listTail {tokens : List Token} (settled : Settled finish stream tokens) :
    Foreseen finish stream (Items.StartIn stream) (parseListTail finish tokens) := by
  match tokens, settled with
  | [], settled =>
      rw [parseListTail]
      exact ⟨List.forall_mem_nil _, settled⟩
  | token :: after, settled =>
      have inside := settled.within
      rw [parseListTail]
      split
      case h_1 =>
          refine (foreseen_expression inside.tail).bind fun expression rest fewer _ _ later => ?_
          refine (foreseen_listTail later).bind fun tail _ _ _ met last => ⟨?_, last⟩
          exact List.forall_mem_cons.mpr ⟨inside.tail.current_mem, met⟩
      case h_2 => exact ⟨List.forall_mem_nil _, settled⟩
termination_by 9 * tokens.length
decreasing_by all_goals simp only [List.length_cons]; omega

end

/-- Where reading a whole formula fails, it objects to its tokens or to the end of the source behind
them. -/
theorem objection_of_parse {error : CompileError}
    (failed : parse finish tokens = .error error) :
    Objection (tokens ++ [Token.finish finish]) error := by
  unfold parse at failed
  have reads := foreseen_expression (List.suffix_refl (tokens ++ [Token.finish finish]))
  cases read : parseExpression finish tokens with
  | error cause =>
      rw [read] at failed reads
      cases failed
      exact reads
  | ok result =>
      obtain ⟨whole, rest, fewer⟩ := result
      rw [read] at failed reads
      cases rest with
      | nil => cases failed
      | cons token after =>
          cases failed
          obtain ⟨next, more, behind⟩ :=
            List.exists_cons_of_ne_nil (List.concat_ne_nil (Token.finish finish) after)
          have settled : Settled finish (tokens ++ [Token.finish finish]) (token :: after) :=
            reads.2
          rw [Settled, List.cons_append, behind] at settled
          exact .trailing settled

theorem complaint_of_parse {error : CompileError}
    (failed : parse finish tokens = .error error) :
    Complaint (tokens ++ [Token.finish finish]) error :=
  (objection_of_parse failed).complaint

end Expression

section Texts

variable {scope : Scope} {text : String} {error : CompileError}

/-- A text that is not read cannot be scanned, or reading objects to its tokens. -/
theorem objection_of_read (unread : readExpression scope text = .error error) :
    tokenize scope text = .error error ∨ ∃ tokens, tokenize scope text = .ok tokens ∧
      Expression.Objection (tokens ++ [Token.finish text.length]) error := by
  cases scanned : tokenize scope text with
  | error cause =>
      rw [readExpression, scanned] at unread
      cases unread
      exact .inl rfl
  | ok tokens =>
      rw [readExpression, scanned] at unread
      exact .inr ⟨tokens, rfl, Expression.objection_of_parse unread⟩

/-- A compile error of a text says why the text is not read. -/
theorem unread_of_compileText
    (failed : compileText scope text = .error (.source (.compile error))) :
    readExpression scope text = .error error := by
  unfold compileText at failed
  split at failed
  case h_1 unread =>
      cases failed
      exact unread
  case h_2 => split at failed <;> cases failed

end Texts

end Formulary
