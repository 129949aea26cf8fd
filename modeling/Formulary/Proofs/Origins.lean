import Formulary.Proofs.Compilation
import Formulary.Proofs.Scanning

/-!
# Where the leaves of a formula come from

A scan finds signs, literals and what names stand for, and nothing else. The leaves of a formula
that is read, and the functions that are called in it, are lexemes of its tokens. So whatever a
compiled program pushes or calls was written as a literal, or stands under a name.
-/

namespace Formulary

/-- What a name may stand for, by the table that it is in. -/
inductive Scope.Names (scope : Scope) (name : String) : Lexeme → Prop
  | logical (operator : Logical) : Names scope name (.logical operator)
  | not : Names scope name .not
  | unit : Names scope name (.number { value := .complex Cartesian.unit })
  | argument {declared : Argument}
      (entered : scope.symbols.arguments.find? name = some declared) :
      Names scope name (.argument declared)
  | cell {named : Cell} (entered : scope.symbols.cells.find? name = some named) :
      Names scope name (.cell named)
  | constant {value : Constant} (entered : scope.symbols.constants.find? name = some value) :
      Names scope name (.constant value)
  | function {function : Builtin} (known : Builtin.find? scope.functions name = some function) :
      Names scope name (.function function)

theorem Scope.names_of_resolve {scope : Scope} {name : String} {found : Lexeme}
    (resolved : scope.resolve name = some found) : scope.Names name found := by
  unfold resolve at resolved
  split_ifs at resolved
  case pos => cases resolved; exact .logical _
  case pos => cases resolved; exact .logical _
  case pos => cases resolved; exact .not
  case pos => cases resolved; exact .unit
  case neg =>
      split at resolved
      case h_1 entered => cases resolved; exact .argument entered
      case h_2 =>
          split at resolved
          case h_1 entered => cases resolved; exact .cell entered
          case h_2 =>
              split at resolved
              case h_1 entered => cases resolved; exact .constant entered
              case h_2 =>
                  obtain ⟨function, known, rfl⟩ := Option.map_eq_some_iff.mp resolved
                  exact .function known

/-- The lexemes that a scan may find. -/
inductive Scope.Offers (scope : Scope) : Lexeme → Prop
  | symbol {text : List Char} {found : Lexeme} {length : Nat}
      (read : Lexer.symbol? text = some (found, length)) : Offers scope found
  | literal (value : Float) : Offers scope (.number { value := .real value })
  | name (name : String) {found : Lexeme} (resolved : scope.resolve name = some found) :
      Offers scope found

namespace Lexer

variable {scope : Scope}

/-- Whatever is found at the head of a text is offered. -/
theorem offers_of_lexeme {position : Nat} {first : Char} {rest : List Char} {found : Lexeme}
    {length : Nat} (read : lexeme scope position first rest = .ok (found, length)) :
    scope.Offers found := by
  simp only [lexeme] at read
  split at read
  case h_1 symbol =>
      cases read
      exact .symbol symbol
  case h_2 =>
      split at read
      case isTrue =>
          split at read
          case h_1 => cases read; exact .literal _
          case h_2 => cases read
      case isFalse =>
          split at read
          case isTrue =>
              split at read
              case h_1 resolved => cases read; exact .name _ resolved
              case h_2 => cases read
          case isFalse => cases read

theorem offers_of_scanned {position : Nat} {text : List Char} {tokens : List Token}
    (scanned : Scanned scope position text tokens) :
    ∀ token ∈ tokens, scope.Offers token.lexeme := by
  induction scanned with
  | finish => exact fun _ member => nomatch member
  | blank _ _ inductionHypothesis => exact inductionHypothesis
  | token _ read _ inductionHypothesis =>
      intro token member
      rcases List.mem_cons.mp member with rfl | behind
      · exact offers_of_lexeme read
      · exact inductionHypothesis token behind

end Lexer

/-! ## The leaves of a formula -/

/-- Whether the leaves of an expression and the functions called in it are all of some lexemes. -/
def Expression.StemsFrom (known : Lexeme → Prop) : Expression → Prop
  | constant value => known (.number value) ∨ known (.constant value)
  | cell named => known (.cell named)
  | argument declared => known (.argument declared)
  | call function operand => known (.function function) ∧ operand.StemsFrom known
  | concat left right => left.StemsFrom known ∧ right.StemsFrom known
  | negate operand => operand.StemsFrom known
  | not operand => operand.StemsFrom known
  | logical _ left right => left.StemsFrom known ∧ right.StemsFrom known
  | comparison _ left right => left.StemsFrom known ∧ right.StemsFrom known
  | sum _ left right => left.StemsFrom known ∧ right.StemsFrom known
  | product left right => left.StemsFrom known ∧ right.StemsFrom known
  | quotient left right => left.StemsFrom known ∧ right.StemsFrom known

section Leaves

variable {known : Lexeme → Prop}

/-- The expression of a derivation stems from its tokens. -/
theorem Grammar.Derivation.stemsFrom_tree {level : Level} {derivation : Derivation level}
    (held : ∀ token ∈ derivation.tokens, known token.lexeme) :
    derivation.tree.StemsFrom known := by
  induction derivation with
  | pass _ operand inductionHypothesis => exact inductionHypothesis held
  | chain left sign token _ right leftHypothesis rightHypothesis =>
      have leftStems := leftHypothesis fun token member =>
        held token (List.mem_append_left _ member)
      have rightStems := rightHypothesis fun token member =>
        held token (List.mem_append_right _ (.tail _ member))
      cases sign <;> exact ⟨leftStems, rightStems⟩
  | signed sign _ _ operand inductionHypothesis =>
      have stems := inductionHypothesis fun token member => held token (.tail _ member)
      cases sign <;> exact stems
  | atom leaf token spells =>
      have here := held token (.head _)
      rw [spells] at here
      cases leaf with
      | number value => exact .inl here
      | constant value => exact .inr here
      | cell named => exact here
      | argument declared => exact here
  | group opening closing _ _ items inductionHypothesis =>
      exact inductionHypothesis fun token member =>
        held token (.tail _ (List.mem_append_left _ member))
  | call function name opening closing names _ _ items inductionHypothesis =>
      refine ⟨names ▸ held name (.head _), inductionHypothesis fun token member => ?_⟩
      exact held token (.tail _ (.tail _ (List.mem_append_left _ member)))

/-- What a step pushes or calls is among some lexemes. -/
def Step.StemsFrom (known : Lexeme → Prop) : Step → Prop
  | constant value => known (.number value) ∨ known (.constant value)
  | argument slot => ∃ declared, known (.argument declared) ∧ slot ∈ declared.slots
  | external named => known (.cell named)
  | call function => known (.function function)
  | _ => True

theorem Expression.stemsFrom_sumStep (sign : SumSign) (left right : Expression) :
    (sumStep sign left right).StemsFrom known := by
  unfold sumStep
  split <;> cases sign <;> trivial

theorem Expression.stemsFrom_productStep (left right : Expression) :
    (productStep left right).StemsFrom known := by
  unfold productStep
  split <;> split <;> trivial

theorem Expression.stemsFrom_quotientStep (left right : Expression) :
    (quotientStep left right).StemsFrom known := by
  unfold quotientStep
  split <;> trivial

/-- What the code of an expression pushes and calls are its leaves and functions. -/
theorem Expression.stemsFrom_code {expression : Expression} (stems : expression.StemsFrom known) :
    ∀ step ∈ expression.code, step.StemsFrom known := by
  induction expression with
  | constant found => exact List.forall_mem_singleton.mpr stems
  | cell named => exact List.forall_mem_singleton.mpr stems
  | argument declared =>
      intro step member
      obtain ⟨slot, inside, rfl⟩ := List.mem_map.mp member
      exact ⟨declared, stems, inside⟩
  | call function operand inductionHypothesis =>
      exact Step.forall_ended (inductionHypothesis stems.2) stems.1
  | concat left right leftHypothesis rightHypothesis =>
      exact List.forall_mem_append.mpr ⟨leftHypothesis stems.1, rightHypothesis stems.2⟩
  | negate operand inductionHypothesis =>
      exact Step.forall_ended (inductionHypothesis stems) trivial
  | not operand inductionHypothesis =>
      exact Step.forall_ended (inductionHypothesis stems) trivial
  | logical operator left right leftHypothesis rightHypothesis =>
      exact Step.forall_joined (leftHypothesis stems.1) (rightHypothesis stems.2) trivial
  | comparison operator left right leftHypothesis rightHypothesis =>
      exact Step.forall_joined (leftHypothesis stems.1) (rightHypothesis stems.2) trivial
  | sum sign left right leftHypothesis rightHypothesis =>
      exact Step.forall_joined (leftHypothesis stems.1) (rightHypothesis stems.2)
        (stemsFrom_sumStep sign left right)
  | product left right leftHypothesis rightHypothesis =>
      exact Step.forall_joined (leftHypothesis stems.1) (rightHypothesis stems.2)
        (stemsFrom_productStep left right)
  | quotient left right leftHypothesis rightHypothesis =>
      exact Step.forall_joined (leftHypothesis stems.1) (rightHypothesis stems.2)
        (stemsFrom_quotientStep left right)

end Leaves

/-- A formula that is read from a text stems from what the scope offers. -/
theorem stemsFrom_of_read {scope : Scope} {text : String} {formula : Expression}
    (read : readExpression scope text = .ok formula) : formula.StemsFrom scope.Offers := by
  obtain ⟨tokens, scanned, parsed⟩ := Outcome.bind_eq_ok_iff.mp read
  obtain ⟨derivation, yields, _, rfl⟩ :=
    (Grammar.sound tokens).1 .expression nofun formula [] (Grammar.parse_eq_ok_iff.mp parsed)
  rw [List.append_nil] at yields
  refine derivation.stemsFrom_tree ?_
  rw [yields]
  exact Lexer.offers_of_scanned (Lexer.scan_eq_ok_iff.mp scanned)

/-! ## Constants -/

namespace Table

variable {α : Type} {table : Table α} {name : String} {value : α}

theorem mem_of_find? (found : table.find? name = some value) : (name, value) ∈ table := by
  induction table with
  | nil => cases found
  | cons entry rest inductionHypothesis =>
      simp only [find?] at found
      split at found
      case isTrue same =>
          cases found
          rw [← same]
          exact .head _
      case isFalse => exact .tail _ (inductionHypothesis found)

theorem mem_insert {entry : String × α} (member : entry ∈ table.insert name value) :
    entry = (name, value) ∨ entry ∈ table := by
  induction table with
  | nil => exact .inl (List.mem_singleton.mp member)
  | cons first rest inductionHypothesis =>
      simp only [insert] at member
      split at member
      case isTrue => exact (List.mem_cons.mp member).imp_right (.tail _)
      case isFalse =>
          rcases List.mem_cons.mp member with rfl | behind
          · exact .inr (.head _)
          · exact (inductionHypothesis behind).imp_right (.tail _)

end Table

/-- A function that is offered is one that formulas may call. -/
theorem Scope.mem_functions_of_offers {scope : Scope} {function : Builtin}
    (offers : scope.Offers (.function function)) : function ∈ scope.functions := by
  cases offers with
  | symbol read =>
      unfold Lexer.symbol? at read
      split at read <;> cases read
  | name name resolved =>
      cases Scope.names_of_resolve resolved with
      | function found => exact List.mem_of_find?_eq_some found

/-- An argument that is offered is declared. -/
theorem Scope.mem_arguments_of_offers {scope : Scope} {declared : Argument}
    (offers : scope.Offers (.argument declared)) :
    ∃ name, (name, declared) ∈ scope.symbols.arguments := by
  cases offers with
  | symbol read =>
      unfold Lexer.symbol? at read
      split at read <;> cases read
  | name name resolved =>
      cases Scope.names_of_resolve resolved with
      | argument entered => exact ⟨name, Table.mem_of_find? entered⟩

/-- A constant that is offered is a literal, the imaginary unit, or in the table of constants. -/
theorem Scope.constant_of_offers {scope : Scope} {value : Constant}
    (offers : scope.Offers (.number value) ∨ scope.Offers (.constant value)) :
    value.entry = 0 ∨ ∃ name, (name, value) ∈ scope.symbols.constants := by
  rcases offers with number | constant
  · cases number with
    | symbol read =>
        unfold Lexer.symbol? at read
        split at read <;> cases read
    | literal => exact .inl rfl
    | name name resolved =>
        cases Scope.names_of_resolve resolved
        exact .inl rfl
  · cases constant with
    | symbol read =>
        unfold Lexer.symbol? at read
        split at read <;> cases read
    | name name resolved =>
        cases Scope.names_of_resolve resolved with
        | constant entered => exact .inr ⟨name, Table.mem_of_find? entered⟩

end Formulary
