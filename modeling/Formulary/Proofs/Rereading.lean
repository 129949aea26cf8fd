import Formulary.Proofs.DisplayNames
import Formulary.Proofs.ImaginaryConstants
import Formulary.Proofs.NumberTexts
import Formulary.Proofs.Readings

/-!
# What the text of a formula is read as

The text of a formula is read as `Expression.reread` says. The entries of a replay read as the parts
of the formula that they stand for: leaves because their display names are looked up as what they
name and the texts of doubles are literals for them, and everything else because of the parentheses
around it. An imaginary constant has no parentheses and is read as a term only; what stands before
it is then read with the literal that it starts with.
-/

namespace Formulary

open Grammar (Level Sign Atom)
open Lexer (Spells Breaks)

/-! ## The reading of an expression -/

/-- What a derivation synthesizes whose expression this is. -/
def Expression.reading (expression : Expression) : Reading :=
  ⟨expression.code, expression.positiveWidth, expression.isBoolean, expression.isComplex⟩

namespace Reading

theorem reading_join {level : Level} (sign : Sign level) (left right : Expression) :
    (sign.join left right).reading = .chain sign left.reading right.reading := by
  ext1
  · exact sign.code_join left right
  · exact sign.positiveWidth_join left right
  · cases sign <;> rfl
  · cases sign <;> simp [Expression.reading, chain, Sign.join, Expression.isComplex, Sign.isBoolean]

theorem reading_call (function : Builtin) (operand : Expression) :
    (Expression.call function operand).reading = .call function operand.reading := rfl

theorem reading_atom (leaf : Atom) : leaf.expression.reading = .atom leaf := by
  cases leaf <;> rfl

end Reading

/-! ## Texts of steps -/

section Texts

variable (naming : Naming) (first second : Replayed)

/-- The text of two operands with a sign between them, in parentheses. -/
def signedText (sign : String) : String :=
  "(" ++ (first.text naming ++ (" " ++ sign ++ " ") ++ second.text naming) ++ ")"

theorem Replayed.text_operator (found : Operator) :
    (operator found first second).text naming =
      signedText naming first second found.opcode.text := by
  simp only [text, signedText, String.append_assoc]
  rfl

theorem Replayed.text_vector (found : VectorOperator) :
    (vector found first second).text naming = signedText naming first second found.sign := by
  simp only [text, signedText, String.append_assoc]
  rfl

theorem Replayed.text_negate :
    (negate first).text naming = "(" ++ ("-" ++ first.text naming) ++ ")" := by
  rw [← String.append_assoc]
  simp only [text]
  rfl

theorem Replayed.text_not :
    (not first).text naming = "(" ++ ("not " ++ first.text naming) ++ ")" := by
  rw [← String.append_assoc]
  simp only [text]
  rfl

namespace Expression

variable (left right : Expression)

theorem text_sumStep (sign : SumSign) :
    ((sumStep sign left right).replayed first second).text naming =
      signedText naming first second (Sign.sum sign).text := by
  unfold sumStep
  split
  case isTrue => cases sign <;> exact Replayed.text_operator ..
  case isFalse => cases sign <;> exact Replayed.text_vector ..

theorem text_productStep :
    ((productStep left right).replayed first second).text naming =
      signedText naming first second Sign.star.text := by
  unfold productStep
  split
  case isTrue =>
      split
      case isTrue => exact Replayed.text_operator ..
      case isFalse => exact Replayed.text_vector ..
  case isFalse => split <;> exact Replayed.text_vector ..

theorem text_quotientStep :
    ((quotientStep left right).replayed first second).text naming =
      signedText naming first second Sign.slash.text := by
  unfold quotientStep
  split
  case isTrue => exact Replayed.text_operator ..
  case isFalse => exact Replayed.text_vector ..

end Expression

end Texts

/-! ## Entries that are read again -/

/-- Whether the text of an entry is read as a term, as widely as the entry stands for. -/
structure ReplayEntry.Reads (scope : Scope) (naming : Naming) (entry : ReplayEntry)
    (reading : Reading) : Prop where
  reads : ReadsAs scope .term (entry.formula.text naming) reading
  width_eq : entry.width = reading.width.val

section Entries

variable {scope : Scope} {naming : Naming} {parts : List ReplayEntry} {first second : Reading}
  {rest : List Reading}

/-- Scalar entries are read as scalars. -/
theorem ReplayEntry.Reads.scalars {readings : List Reading}
    (reads : List.Forall₂ (ReplayEntry.Reads scope naming) parts readings)
    (scalars : ∀ entry ∈ parts, entry.width = 1) :
    ∀ reading ∈ readings, reading.width.val = 1 := by
  induction reads with
  | nil => exact fun _ member => nomatch member
  | cons readsFirst _ inductionHypothesis =>
      obtain ⟨scalar, others⟩ := List.forall_mem_cons.mp scalars
      refine List.forall_mem_cons.mpr ⟨?_, inductionHypothesis others⟩
      exact Int.ofNat_inj.mp (readsFirst.width_eq.symm.trans scalar)

/-- Entries with commas between them are read as a list. -/
theorem ReadsAsList.entries
    (reads : List.Forall₂ (ReplayEntry.Reads scope naming) parts (first :: rest)) :
    ReadsAsList scope (", ".intercalate (parts.map fun entry => entry.formula.text naming))
      first rest := by
  have expression : ∀ {entry : ReplayEntry} {reading : Reading}, entry.Reads scope naming reading →
      ReadsAs scope .expression (entry.formula.text naming) reading :=
    fun reads => reads.reads.loosen .expression (by decide)
  cases reads with
  | cons readsFirst readsRest =>
      refine .intercalate (expression readsFirst) (List.forall₂_map_left_iff.mpr ?_)
      exact readsRest.imp fun _ _ => expression

/-- Several entries that are put together are read as the list of them. -/
theorem ReadsAs.several
    (reads : List.Forall₂ (ReplayEntry.Reads scope naming) parts (first :: second :: rest)) :
    ReadsAs scope .primary ((Replayed.joined parts).text naming)
      (.joined first (second :: rest)) := by
  have list := ReadsAsList.entries reads
  obtain ⟨entry, behind, _, readsBehind, rfl⟩ := List.forall₂_cons_right_iff.mp reads
  obtain ⟨other, more, _, _, rfl⟩ := List.forall₂_cons_right_iff.mp readsBehind
  have text : (Replayed.joined (entry :: other :: more)).text naming =
      "(" ++ ", ".intercalate ((entry :: other :: more).map fun entry =>
        entry.formula.text naming) ++ ")" := by
    simp [Replayed.joined, Replayed.ofParts, Replayed.text, Function.comp_def]
  rw [text]
  exact .group list

end Entries

/-! ## Expressions that are read again -/

/-- The level at which the text of an expression is read: it has parentheses, or is a name or a
literal, unless it is the product that stands for an imaginary constant. -/
def Expression.level (expression : Expression) : Level :=
  if expression.imaginary?.isSome then .term else .primary

/-- Whether the entries of an expression are read one by one, and together as another one. -/
structure Expression.ReadsAgain (scope : Scope) (naming : Naming) (expression again : Expression) :
    Prop where
  joined : ReadsAs scope expression.level ((Replayed.joined expression.entries).text naming)
    again.reading
  entries : ∃ first rest,
    List.Forall₂ (ReplayEntry.Reads scope naming) expression.entries (first :: rest) ∧
      Reading.joined first rest = again.reading

/-- Two operands with a sign between them. -/
theorem ReadsBefore.pair {scope : Scope} {follows : List Char → Prop} {level : Level}
    {text other : String} {left right : Expression} (sign : Sign level)
    (readsLeft : ReadsAs scope level text left.reading)
    (readsRight : ReadsBefore scope follows level.inner other right.reading)
    (accepts : sign.Accepts left.positiveWidth right.positiveWidth) :
    ReadsBefore scope follows level (text ++ (" " ++ sign.text ++ " ") ++ other)
      (sign.join left right).reading := by
  rw [Reading.reading_join]
  exact .chain sign readsLeft readsRight accepts

/-- An expression in parentheses. -/
theorem ReadsAs.parenthesized {scope : Scope} {level : Level} {text : String} {reading : Reading}
    (reads : ReadsAs scope level text reading) (noList : level ≠ .list) :
    ReadsAs scope .primary ("(" ++ text ++ ")") reading :=
  .group (.single (reads.loosen .expression (by cases level <;> first | decide | contradiction)))

namespace Expression.ReadsAgain

variable {scope : Scope} {naming : Naming}
  {expression left right again leftAgain rightAgain : Expression}

theorem term_le_level (expression : Expression) : Level.term.rank ≤ expression.level.rank := by
  unfold level
  split <;> decide

/-- An expression that leaves one entry is read as it. -/
theorem single {formula : Replayed} {width : Int}
    (entries : expression.entries = [⟨formula, width⟩]) (same : again.width = expression.width)
    (reads : ReadsAs scope expression.level (formula.text naming) again.reading) :
    expression.ReadsAgain scope naming again := by
  have total : width = expression.width := by
    simpa [entries, ReplayEntry.total] using expression.total_entries
  have term := reads.loosen .term (term_le_level expression)
  refine ⟨by rwa [entries], again.reading, [], ?_, rfl⟩
  rw [entries]
  exact .cons ⟨term, total.trans (congrArg _ same.symm)⟩ .nil

/-- An operand of a sign that binds less tightly than a product, or its left operand. -/
theorem operand (reads : expression.ReadsAgain scope naming again) (level : Level)
    (loose : level.rank ≤ Level.term.rank) :
    ReadsAs scope level ((Replayed.joined expression.entries).text naming) again.reading :=
  reads.joined.loosen level (loose.trans (term_le_level expression))

/-- Operands side by side. -/
theorem concat (readsLeft : left.ReadsAgain scope naming leftAgain)
    (readsRight : right.ReadsAgain scope naming rightAgain) :
    (left.concat right).ReadsAgain scope naming (leftAgain.concat rightAgain) := by
  obtain ⟨first, rest, reads, whole⟩ := readsLeft.entries
  obtain ⟨second, more, readsMore, wholeMore⟩ := readsRight.entries
  have all := List.rel_append reads readsMore
  have reading : Reading.joined first (rest ++ second :: more) =
      (leftAgain.concat rightAgain).reading := by
    rw [Reading.joined_append, whole, wholeMore]
    exact (Reading.reading_join .comma leftAgain rightAgain).symm
  refine ⟨?_, first, rest ++ second :: more, all, reading⟩
  rw [← reading]
  cases rest with
  | nil => exact .several all
  | cons third others => exact .several all

/-- A function before an operand of as many scalars as it takes. -/
theorem call {function : Builtin} (reads : expression.ReadsAgain scope naming again)
    (resolved : scope.resolve function.name = some (.function function))
    (arity : expression.width = function.arity)
    (scalars : ∀ entry ∈ expression.entries, entry.width = 1) :
    (Expression.call function expression).ReadsAgain scope naming (.call function again) := by
  obtain ⟨first, rest, entries, whole⟩ := reads.entries
  have count : rest.length + 1 = function.arity := by
    rw [← List.length_cons (a := first), ← entries.length_eq, expression.length_entries scalars,
      arity]
  have narrow := ReplayEntry.Reads.scalars entries scalars
  refine .single rfl rfl (?_ : ReadsAs scope .primary _ _)
  rw [Reading.reading_call, ← whole]
  have text := ReadsAs.call resolved (.entries entries) count narrow
  simpa [Replayed.text, Function.comp_def] using text

/-- Two operands of a sign that binds less tightly than a product, in parentheses. -/
theorem pair {level : Level} (sign : Sign level) (noList : level ≠ .list)
    (loose : level.inner.rank ≤ Level.term.rank)
    (readsLeft : left.ReadsAgain scope naming leftAgain)
    (readsRight : right.ReadsAgain scope naming rightAgain)
    (accepts : sign.Accepts leftAgain.positiveWidth rightAgain.positiveWidth) :
    ReadsAs scope .primary
      (signedText naming (.joined left.entries) (.joined right.entries) sign.text)
      (sign.join leftAgain rightAgain).reading := by
  have outer : level.rank ≤ Level.term.rank := by
    cases level <;> first | decide | exact absurd loose (by decide)
  have whole :=
    ReadsBefore.pair sign (readsLeft.operand _ outer) (readsRight.operand _ loose) accepts
  exact ReadsAs.parenthesized whole noList

end Expression.ReadsAgain

/-! ## Constants -/

/-- Whether a number is a finite double whose sign is not set. -/
def Number.isUnsigned : Number → Bool
  | real value => (Binary64.decode? value).any fun parts => !parts.negative
  | _ => false

/-- Whether a number is a finite double, or a complex number of two, whose signs are not set. -/
def Number.hasUnsignedParts : Number → Bool
  | complex value => isUnsigned (.real value.re) && isUnsigned (.real value.im)
  | number => number.isUnsigned

theorem Number.isUnsigned_iff {number : Number} :
    number.isUnsigned = true ↔ ∃ value parts, number = .real value ∧
      Binary64.decode? value = some parts ∧ parts.negative = false := by
  cases number with
  | real value => simp [isUnsigned, Option.any_eq_true]
  | _ => simp [isUnsigned]

namespace ReadsBefore

variable {scope : Scope} {text : String} {expression : Expression}

/-- A double without a sign is read from its text as a literal. -/
theorem literal {value : Float} (unsigned : (Number.real value).isUnsigned = true) :
    ReadsBefore scope Breaks .primary (realText value) (Expression.literal value).reading := by
  obtain ⟨_, parts, same, decoded, plain⟩ := Number.isUnsigned_iff.mp unsigned
  cases same
  obtain ⟨nonempty, whole, same⟩ := Decimal.floatText_spec decoded plain
  have spells : Spells scope Breaks _ _ := Lexer.spells_literal whole nonempty
  rw [same] at spells
  rw [show (Expression.literal value).reading = _ from
    Reading.reading_atom (.number { value := .real value })]
  exact .atom _ (by rwa [realText, String.toList_ofList])

theorem unit : ReadsAs scope .primary "I" Expression.unit.reading :=
  .atom (.number _) (Lexer.spells_word ⟨'I', [], rfl, by decide, rfl⟩ rfl)

/-- A term before a product with the imaginary unit. -/
theorem timesUnit (reads : ReadsBefore scope Breaks .term text expression.reading) :
    ReadsAs scope .term (text ++ "*I") (expression.product .unit).reading := by
  have star : Spells scope (fun _ => True) "*".toList [.star] :=
    Lexer.spells_symbol (by decide) fun _ _ => rfl
  have whole := reads.join .star star (unit.lift .unary)
    (fun rest => ⟨Lexer.continuesName_of_mark (by decide), by decide⟩) trivial
  rw [← Reading.reading_join .star, String.append_assoc] at whole
  exact whole

end ReadsBefore

/-- Whether a step pushes no constant but a number whose parts are finite doubles without signs. -/
def Step.hasUnsignedParts : Step → Bool
  | constant found => found.value.hasUnsignedParts
  | _ => true

section Constants

variable {value : Cartesian}

theorem constantText_imaginary (zero : (value.re == 0) = true) :
    constantText (.complex value) = realText value.im ++ "*I" := by
  simp only [constantText, zero, if_true]
  rfl

theorem constantText_complex (other : ¬(value.re == 0) = true) :
    constantText (.complex value) =
      "(" ++ (realText value.re ++ "+" ++ (realText value.im ++ "*I")) ++ ")" := by
  simp only [constantText, if_neg other, String.append_assoc]
  rfl

end Constants

namespace Expression

variable {scope : Scope} {naming : Naming} {expression again : Expression}

/-- An imaginary constant is read from its text as a product. -/
theorem reads_imaginary {part : Float} (unsigned : (Number.real part).isUnsigned = true) :
    ReadsAs scope .term (realText part ++ "*I") (product (literal part) unit).reading :=
  .timesUnit ((ReadsBefore.literal unsigned).loosen .term (by decide))

/-- A constant is read from its text: a double as a literal, a complex number as the sum of its
parts. -/
theorem readsAgain_constant {found : Constant} (plain : found.value.hasUnsignedParts = true) :
    (constant found).ReadsAgain scope naming (ofNumber found.value) := by
  obtain ⟨number, entry⟩ := found
  have width := width_ofNumber number
  cases number with
  | int => cases plain
  | real value =>
      refine .single rfl rfl (?_ : ReadsAs scope .primary _ _)
      rw [Replayed.text]
      exact (ReadsBefore.literal plain).weaken fun _ ends => ends.halts.breaks
  | complex value =>
      obtain ⟨realPlain, imaginaryPlain⟩ := Bool.and_eq_true_iff.mp plain
      have imaginary : ReadsAs scope .term _ _ := reads_imaginary imaginaryPlain
      refine .single rfl width ?_
      rw [Replayed.text, ofNumber]
      by_cases zero : (value.re == 0) = true
      · have level : (constant ⟨.complex value, entry⟩).level = .term := by
          simp [Expression.level, imaginary?, Number.imaginary?, zero]
        rw [level, constantText_imaginary zero, if_pos zero]
        exact imaginary
      · have level : (constant ⟨.complex value, entry⟩).level = .primary := by
          simp [Expression.level, imaginary?, Number.imaginary?, zero]
        rw [level, constantText_complex zero, if_neg zero]
        have plus : Spells scope (fun _ => True) "+".toList [.plus] :=
          Lexer.spells_symbol (by decide) fun _ _ => rfl
        have before : ∀ rest, Breaks ("+".toList ++ rest) := fun _ =>
          ⟨Lexer.continuesName_of_mark (by decide), by decide⟩
        have sum := ((ReadsBefore.literal realPlain).loosen .additive (by decide)).join
          (.sum .plus) plus imaginary before trivial
        rw [← Reading.reading_join (.sum .plus)] at sum
        exact ReadsAs.parenthesized sum (by decide)

/-- An operation that binds no less tightly than a product, in parentheses, with its last operand
behind what stands before it. -/
theorem ReadsAgain.behind {apply : Expression → Expression} {before : String}
    (plain : ∀ step ∈ expression.code, step.hasUnsignedParts = true)
    (reads : expression.ReadsAgain scope naming again) (same : again.width = expression.width)
    (applied : ∀ (follows : List Char → Prop) (text : String) (last : Expression),
      last.width = expression.width → ReadsBefore scope follows .unary text last.reading →
        ReadsBefore scope follows .term (before ++ text) (apply last).reading) :
    ReadsAs scope .primary
      ("(" ++ (before ++ (Replayed.joined expression.entries).text naming) ++ ")")
      (Expression.behind apply expression again).reading := by
  refine ReadsAs.parenthesized (?_ : ReadsAs scope .term _ _) (by decide)
  unfold Expression.behind
  split
  case h_1 part found =>
      obtain ⟨value, entry, rfl, zero, rfl⟩ := of_imaginary? found
      have parts : (Number.complex value).hasUnsignedParts = true := plain _ (.head _)
      have unsigned := (Bool.and_eq_true_iff.mp parts).2
      have text : (Replayed.joined (constant ⟨.complex value, entry⟩).entries).text naming =
          realText value.im ++ "*I" := by
        rw [← constantText_imaginary zero]
        simp [Expression.entries, Replayed.joined, Replayed.ofParts, Replayed.text]
      rw [text, ← String.append_assoc]
      exact .timesUnit
        (applied _ _ _ rfl ((ReadsBefore.literal unsigned).loosen .unary (by decide)))
  case h_2 none =>
      have level : expression.level = .primary := by simp [Expression.level, none]
      have joined := reads.joined
      rw [level] at joined
      exact applied _ _ _ same (joined.loosen .unary (by decide))

/-! ## Formulas -/

/-- A cell is read from the name that it is shown with. -/
theorem readsAgain_cell (readable : scope.symbols.Readable) (store : Store) {named : Cell}
    (stems : (cell named).StemsFrom scope.Offers) :
    (cell named).ReadsAgain scope (.ofTables scope.symbols store) (cell named) := by
  obtain ⟨name, member⟩ := Scope.cell_of_offers stems
  obtain ⟨other, shown, entered⟩ := SymbolTables.Readable.exists_cellName? member
  have text : (Replayed.cell named).text (.ofTables scope.symbols store) = other := by
    simp [Replayed.text, Naming.cell, Naming.ofTables, shown]
  refine .single rfl rfl (?_ : ReadsAs scope .primary _ _)
  rw [text]
  have word := readable.words other (List.mem_append_right _ (List.mem_map_of_mem entered))
  exact .atom (.cell named) (Lexer.spells_word word (Scope.resolve_cell readable entered))

/-- A scalar argument is read from its name. -/
theorem readsAgain_argument (readable : scope.symbols.Readable) (store : Store)
    {declared : Argument} (stems : (argument declared).StemsFrom scope.Offers) :
    (argument declared).ReadsAgain scope (.ofTables scope.symbols store) (argument declared) := by
  obtain ⟨name, member⟩ := Scope.argument_of_offers stems
  have scalar : declared.width.val = 1 := readable.scalars _ member
  have slots : declared.slots = [declared.slot] := by
    rw [Argument.slots, scalar]
    rfl
  have text : (Replayed.argument declared.slot).text (.ofTables scope.symbols store) = name := by
    simp [Replayed.text, Naming.slot, Naming.ofTables, readable.slotName?_eq member]
  have entries : (argument declared).entries = [⟨.argument declared.slot, 1⟩] := by
    rw [Expression.entries, slots]
    rfl
  refine .single entries rfl (?_ : ReadsAs scope .primary _ _)
  rw [text]
  have word := readable.words name (List.mem_append_left _ (List.mem_map_of_mem member))
  exact .atom (.argument declared)
    (Lexer.spells_word word (Scope.resolve_argument readable member))

/-- The text of a formula whose leaves are known by their names is read again. -/
theorem readsAgain (readable : scope.symbols.Readable) (store : Store)
    {expression : Expression} (stems : expression.StemsFrom scope.Offers)
    (typed : expression.WellTyped) (flat : expression.Flat)
    (plain : ∀ step ∈ expression.code, step.hasUnsignedParts = true) :
    expression.ReadsAgain scope (.ofTables scope.symbols store) expression.reread := by
  induction expression with
  | constant found => exact readsAgain_constant (plain _ (.head _))
  | cell named => exact readsAgain_cell readable store stems
  | argument declared => exact readsAgain_argument readable store stems
  | call function operand inductionHypothesis =>
      have inOperand := (List.forall_mem_append.mp plain).1
      exact (inductionHypothesis stems.2 typed.1 flat.1 inOperand).call
        (Scope.resolve_function stems.1) typed.2 flat.2
  | concat left right leftHypothesis rightHypothesis =>
      obtain ⟨inLeft, inRight⟩ := List.forall_mem_append.mp plain
      exact (leftHypothesis stems.1 typed.1 flat.1 inLeft).concat
        (rightHypothesis stems.2 typed.2 flat.2 inRight)
  | negate operand inductionHypothesis =>
      have inOperand := (List.forall_mem_append.mp plain).1
      refine .single rfl (width_reread (negate operand)) (?_ : ReadsAs scope .primary _ _)
      rw [Replayed.text_negate]
      refine (inductionHypothesis stems typed flat inOperand).behind inOperand operand.width_reread
        fun follows text last _ reads => ?_
      exact (reads.signed .minus Lexer.spells_minus trivial).loosen .term (by decide)
  | not operand inductionHypothesis =>
      have inOperand := (List.forall_mem_append.mp plain).1
      refine .single rfl rfl (?_ : ReadsAs scope .primary _ _)
      rw [Replayed.text_not]
      have reads := (inductionHypothesis stems typed.1 flat inOperand).operand .negation (by decide)
      have spells : Spells scope (fun _ => True) "not ".toList [.not] :=
        Lexer.spells_not.append Lexer.spells_space fun _ _ => .head _
      exact ReadsAs.parenthesized
        (reads.signed .not spells (operand.width_reread.trans typed.2)) (by decide)
  | logical operator left right leftHypothesis rightHypothesis =>
      obtain ⟨inLeft, inRight⟩ := List.forall_mem_append.mp (List.forall_mem_append.mp plain).1
      refine .single rfl rfl (?_ : ReadsAs scope .primary _ _)
      rw [Replayed.text_operator]
      exact (leftHypothesis stems.1 typed.1 flat.1 inLeft).pair (.logical operator) (by decide)
        (by decide) (rightHypothesis stems.2 typed.2.1 flat.2 inRight)
        ⟨left.width_reread.trans typed.2.2.1, right.width_reread.trans typed.2.2.2⟩
  | comparison operator left right leftHypothesis rightHypothesis =>
      obtain ⟨inLeft, inRight⟩ := List.forall_mem_append.mp (List.forall_mem_append.mp plain).1
      refine .single rfl rfl (?_ : ReadsAs scope .primary _ _)
      rw [Replayed.text_operator]
      exact (leftHypothesis stems.1 typed.1 flat.1 inLeft).pair (.comparison operator) (by decide)
        (by decide) (rightHypothesis stems.2 typed.2.1 flat.2 inRight)
        ⟨left.width_reread.trans typed.2.2.1, right.width_reread.trans typed.2.2.2⟩
  | sum sign left right leftHypothesis rightHypothesis =>
      obtain ⟨inLeft, inRight⟩ := List.forall_mem_append.mp (List.forall_mem_append.mp plain).1
      refine .single rfl (width_reread (sum sign left right)) (?_ : ReadsAs scope .primary _ _)
      rw [text_sumStep]
      exact (leftHypothesis stems.1 typed.1 flat.1 inLeft).pair (.sum sign) (by decide)
        (by decide) (rightHypothesis stems.2 typed.2 flat.2 inRight) trivial
  | product left right leftHypothesis rightHypothesis =>
      obtain ⟨inLeft, inRight⟩ := List.forall_mem_append.mp (List.forall_mem_append.mp plain).1
      refine .single rfl (width_reread (product left right)) (?_ : ReadsAs scope .primary _ _)
      rw [text_productStep]
      have before := (leftHypothesis stems.1 typed.1 flat.1 inLeft).operand .term le_rfl
      exact (rightHypothesis stems.2 typed.2 flat.2 inRight).behind inRight right.width_reread
        fun follows text last _ reads => .pair .star before reads trivial
  | quotient left right leftHypothesis rightHypothesis =>
      obtain ⟨inLeft, inRight⟩ := List.forall_mem_append.mp (List.forall_mem_append.mp plain).1
      refine .single rfl (width_reread (quotient left right)) (?_ : ReadsAs scope .primary _ _)
      rw [text_quotientStep]
      have before := (leftHypothesis stems.1 typed.1 flat.1 inLeft).operand .term le_rfl
      exact (rightHypothesis stems.2 typed.2.1 flat.2 inRight).behind inRight right.width_reread
        fun follows text last same reads => .pair .slash before reads (same.trans typed.2.2)

end Expression

end Formulary
