import Formulary.Proofs.Sessions

/-!
# The kernel cache is invisible where keys agree

Every constant of a formula is genuine: a literal, or an object that the host gave. So keys that are
the same have kernels that cannot be told apart, if they agree in what equality does not see. The
cache then answers as if every kernel were made anew: an entry holds the kernel of its own key, and
a request is met by an entry only under the same key.

Where two keys do not agree, the cache shows. `0.0` and `-0.0` are equal, so a formula of the one
gets the kernel of the other.
-/

namespace Formulary

open Outcome (bind_eq_ok_iff)

/-! ## The constants of formulas are genuine -/

section Genuine

variable {objects : Nat → Number}

theorem Constant.genuine_of_unmarked {constant : Constant} (unmarked : constant.entry = 0) :
    constant.Genuine objects :=
  fun _ marked => absurd (unmarked.symm.trans marked) nofun

/-- Every constant that a formula holds is genuine. -/
structure Formula.Genuine (objects : Nat → Number) (formula : Formula) : Prop where
  tolerance : formula.tolerance.Genuine objects
  named : ∀ entry ∈ formula.scope.symbols.constants, entry.2.Genuine objects
  pushed : ∀ constant ∈ formula.program.constants, constant.Genuine objects

namespace Formula

variable {formula changed : Formula}

theorem genuine_new (functions : List Builtin) :
    Formula.Genuine objects
      { scope := { symbols := { constants := defaultConstants }, functions } } where
  tolerance := Constant.genuine_of_unmarked rfl
  named entry member := by
    cases List.mem_singleton.mp member
    exact Constant.genuine_of_unmarked rfl
  pushed _ member := nomatch member

theorem Genuine.defineConstant (genuine : formula.Genuine objects) (name : String)
    {value : Constant} (given : value.Genuine objects) :
    (formula.defineConstant name value).Genuine objects where
  tolerance := genuine.tolerance
  named entry member := by
    rcases Table.mem_insert member with rfl | before
    · exact given
    · exact genuine.named entry before
  pushed := genuine.pushed

/-- A compiled program pushes literals and constants of the table. -/
theorem genuine_of_compile {scope : Scope} {source : Source} {compiled : Compiled}
    (compiles : compile scope source = .ok compiled)
    (named : ∀ entry ∈ scope.symbols.constants, entry.2.Genuine objects) :
    ∀ constant ∈ compiled.program.constants, constant.Genuine objects := by
  obtain ⟨text, expression, _, read, _, steps, _⟩ := exists_formula compiles
  intro constant member
  obtain ⟨step, inside, isConstant⟩ := List.mem_filterMap.mp member
  rw [steps] at inside
  cases step with
  | constant found =>
      cases isConstant
      rcases Scope.constant_of_offers
        (Expression.stemsFrom_code (stemsFrom_of_read read) _ inside) with unmarked | ⟨name, entry⟩
      · exact Constant.genuine_of_unmarked unmarked
      · exact named _ entry
  | _ => cases isConstant

theorem Genuine.parse (genuine : formula.Genuine objects) (source : Source) :
    (formula.parse source).1.Genuine objects := by
  unfold Formula.parse
  split
  case h_1 compiled compiles =>
      exact ⟨genuine.tolerance, genuine.named, genuine_of_compile compiles genuine.named⟩
  case h_2 => exact ⟨genuine.tolerance, genuine.named, fun _ member => nomatch member⟩
  case h_3 => exact genuine

theorem Genuine.append (genuine : formula.Genuine objects) {step : Step}
    (given : ∀ constant ∈ step.constant?, constant.Genuine objects)
    (appended : formula.append step = .ok changed) : changed.Genuine objects := by
  unfold Formula.append at appended
  split at appended
  case h_1 => cases appended
  case h_2 program extended =>
      cases appended
      refine ⟨genuine.tolerance, genuine.named, fun constant member => ?_⟩
      have steps : program.steps = formula.program.steps ++ [step] :=
        Program.steps_of_ofSteps extended
      change constant ∈ program.steps.filterMap Step.constant? at member
      rw [steps, List.filterMap_append] at member
      rcases List.mem_append.mp member with before | last
      · exact genuine.pushed constant before
      · obtain ⟨_, same, found⟩ := List.mem_filterMap.mp last
        cases List.mem_singleton.mp same
        exact given constant found

theorem constant?_ofCode {code : Opcode} {left right : Int} {step : Step}
    (made : Step.ofCode code left right = .ok step) : step.constant? = none := by
  simp only [Step.ofCode, Step.ofVectorCode, Step.ofScalarCode] at made
  split at made
  · split at made
    · cases made
    · split at made <;> cases made
      rfl
  · split at made
    · cases made; rfl
    · cases made
    · split at made <;> cases made
      rfl

theorem Genuine.orKeep (genuine : formula.Genuine objects) {outcome : Except Failure Formula}
    (kept : ∀ changed, outcome = .ok changed → changed.Genuine objects) :
    (formula.orKeep outcome).1.Genuine objects := by
  cases outcome with
  | ok changed => exact kept changed rfl
  | error => exact genuine

theorem eq_ok_of_mapError {ε ε' α : Type} {outcome : Except ε α} {view : ε → ε'} {value : α}
    (mapped : outcome.mapError view = .ok value) : outcome = .ok value := by
  cases outcome with
  | ok => cases mapped; rfl
  | error => cases mapped

/-- Edits keep the constants of a formula genuine. -/
theorem Genuine.edit (genuine : formula.Genuine objects) (edit : Edit) :
    (formula.edit objects edit).1.Genuine objects := by
  have noConstant : ∀ {step : Step}, step.constant? = none →
      ∀ constant ∈ step.constant?, constant.Genuine objects := by
    intro step none constant member
    rw [none] at member
    cases member
  cases edit with
  | defineConstant name object => exact genuine.defineConstant name (Constant.genuine_ofObject _ _)
  | defineVariable name binding =>
      refine genuine.orKeep fun changed defined => ?_
      cases binding with
      | cell named => cases defined; exact ⟨genuine.tolerance, genuine.named, genuine.pushed⟩
      | other => cases defined
  | defineArgument name slot width isComplex =>
      refine genuine.orKeep fun changed defined => ?_
      unfold defineArgument at defined
      split at defined
      case h_1 => cases defined; exact ⟨genuine.tolerance, genuine.named, genuine.pushed⟩
      case h_2 => cases defined
  | parse source => exact genuine.parse source
  | appendConstant object =>
      refine genuine.orKeep fun changed appended => ?_
      refine genuine.append (fun constant member => ?_) (eq_ok_of_mapError appended)
      cases member
      exact Constant.genuine_ofObject _ _
  | appendArgument slot =>
      refine genuine.orKeep fun changed appended => ?_
      obtain ⟨step, made, extended⟩ := bind_eq_ok_iff.mp (eq_ok_of_mapError appended)
      refine genuine.append (noConstant ?_) extended
      unfold Step.ofSlot at made
      split at made <;> cases made
      rfl
  | appendVariable named =>
      exact genuine.orKeep fun changed appended =>
        genuine.append (noConstant rfl) (eq_ok_of_mapError appended)
  | appendOperator text left right =>
      refine genuine.orKeep fun changed appended => ?_
      obtain ⟨code, _, rest⟩ := bind_eq_ok_iff.mp (eq_ok_of_mapError appended)
      obtain ⟨step, made, extended⟩ := bind_eq_ok_iff.mp rest
      exact genuine.append (noConstant (constant?_ofCode made)) extended
  | appendFunction name =>
      refine genuine.orKeep fun changed appended => ?_
      have extended := eq_ok_of_mapError appended
      unfold appendFunction at extended
      split at extended
      case h_1 => exact genuine.append (noConstant rfl) extended
      case h_2 => cases extended
  | appendCall function =>
      exact genuine.orKeep fun changed appended =>
        genuine.append (noConstant rfl) (eq_ok_of_mapError appended)
  | setResultType resultType => exact ⟨genuine.tolerance, genuine.named, genuine.pushed⟩
  | setTolerance object =>
      exact ⟨Constant.genuine_ofObject _ _, genuine.named, genuine.pushed⟩

end Formula

/-- The formulas of a session stay genuine. -/
theorem Request.genuine_change {formulas : List Formula}
    (genuine : ∀ formula ∈ formulas, formula.Genuine objects) (request : Request) :
    ∀ formula ∈ (request.change objects formulas).1, formula.Genuine objects := by
  cases request with
  | create functions =>
      intro formula member
      rcases List.mem_append.mp member with before | last
      · exact genuine formula before
      · cases List.mem_singleton.mp last
        exact Formula.genuine_new functions
  | copy number =>
      cases found : formulas[number]? with
      | none => simpa only [change, found] using genuine
      | some original =>
          simp only [change, found]
          intro formula member
          rcases List.mem_append.mp member with before | last
          · exact genuine formula before
          · cases List.mem_singleton.mp last
            exact genuine _ (List.mem_of_getElem? found)
  | edit number given =>
      cases found : formulas[number]? with
      | none => simpa only [change, found] using genuine
      | some original =>
          simp only [change, found]
          intro formula member
          rcases List.mem_or_eq_of_mem_set member with before | rfl
          · exact genuine formula before
          · exact (genuine _ (List.mem_of_getElem? found)).edit given
  | _ => exact genuine

/-- The key of a genuine formula has genuine constants. -/
theorem Formula.genuine_kernelKey {formula : Formula} (genuine : formula.Genuine objects)
    {domain : Domain} {key : KernelKey} (found : formula.kernelKey domain = .ok key) :
    ∀ constant ∈ key.constants, constant.Genuine objects := by
  obtain ⟨program, usable, made⟩ := bind_eq_ok_iff.mp found
  cases made
  unfold Formula.usable at usable
  split_ifs at usable
  cases usable
  intro constant member
  rcases List.mem_cons.mp member with rfl | inside
  · exact genuine.tolerance
  · exact genuine.pushed constant inside

end Genuine

/-! ## What a request finds in the cache -/

namespace RecentMap

variable {κ ν : Type}

theorem mem_of_extract {matching : κ → Bool} {entries others : List (κ × ν)} {found : κ × ν}
    (extracted : extract matching entries = some (found, others)) :
    found ∈ entries ∧ matching found.1 = true ∧ ∀ entry ∈ others, entry ∈ entries := by
  induction entries generalizing others with
  | nil => cases extracted
  | cons first rest inductionHypothesis =>
      simp only [extract] at extracted
      split at extracted
      case isTrue meets =>
          cases extracted
          exact ⟨.head _, meets, fun _ => .tail _⟩
      case isFalse =>
          obtain ⟨⟨other, remaining⟩, behind, same⟩ := Option.map_eq_some_iff.mp extracted
          cases same
          obtain ⟨member, meets, kept⟩ := inductionHypothesis behind
          refine ⟨.tail _ member, meets, fun entry inside => ?_⟩
          rcases List.mem_cons.mp inside with rfl | later
          · exact .head _
          · exact .tail _ (kept entry later)

/-- A request is met by an entry under the same key, or it makes a new one. -/
theorem request_cases (same : κ → κ → Bool) (map : RecentMap κ ν) (key : κ) (make : Unit → ν) :
    (∃ entry ∈ map.entries, same key entry.1 = true ∧ (map.request same key make).1 = entry.2 ∧
      ∀ kept ∈ (map.request same key make).2.entries, kept ∈ map.entries) ∨
    (map.request same key make).1 = make () ∧
      ∀ kept ∈ (map.request same key make).2.entries,
        kept = (key, make ()) ∨ kept ∈ map.entries := by
  unfold request
  split
  case h_1 found others extracted =>
      obtain ⟨member, meets, kept⟩ := mem_of_extract extracted
      refine .inl ⟨found, member, meets, rfl, fun entry inside => ?_⟩
      rcases List.mem_cons.mp inside with rfl | later
      · exact member
      · exact kept entry later
  case h_2 =>
      exact .inr ⟨rfl, fun entry inside => List.mem_cons.mp (List.mem_of_mem_take inside)⟩

end RecentMap

namespace KernelCache

variable {known : KernelKey → Prop} {cache : KernelCache}

/-- The entries of a cache are under known keys and hold the kernels of these keys. -/
def Holds (known : KernelKey → Prop) (cache : KernelCache) : Prop :=
  ∀ entry ∈ cache.recent.entries, known entry.1 ∧ cache.kernel? entry.2 = some entry.1.kernel

theorem kernel?_push (cache : KernelCache) (made : ReadyKernel)
    (recent : RecentMap KernelKey Nat) :
    kernel? ⟨cache.ready.push made, recent⟩ cache.ready.size = some made.kernel := by
  simp [kernel?]

theorem kernel?_push_of_some {number : Nat} {kernel : Kernel}
    (found : cache.kernel? number = some kernel) (made : ReadyKernel)
    (recent : RecentMap KernelKey Nat) :
    kernel? ⟨cache.ready.push made, recent⟩ number = some kernel := by
  obtain ⟨ready, present, rfl⟩ := Option.map_eq_some_iff.mp found
  obtain ⟨inside, rfl⟩ := Array.getElem?_eq_some_iff.mp present
  rw [kernel?, Array.getElem?_push_lt inside]
  rfl

/-- Notes of use leave the kernels as they are. -/
theorem kernel?_noteUse (cache : KernelCache) (number other : Nat)
    (change : KernelUse → KernelUse) :
    (cache.noteUse number change).kernel? other = cache.kernel? other := by
  simp only [kernel?, noteUse, Array.getElem?_modify]
  split
  case isTrue same => cases found : cache.ready[other]? <;> rfl
  case isFalse => rfl

/-- What the cache gives for a key: the kernel of the key itself, or of a known one that is the
same. Kernels that were given before stay. -/
structure Gives (known : KernelKey → Prop) (cache : KernelCache) (key : KernelKey) (number : Nat)
    (next : KernelCache) : Prop where
  found : ∃ entry, known entry ∧ (entry = key ∨ key.same entry = true) ∧
    next.kernel? number = some entry.kernel
  holds : next.Holds known
  stays : ∀ other kernel, cache.kernel? other = some kernel → next.kernel? other = some kernel

/-- A cache gives what it holds. -/
theorem gives_lower (holds : cache.Holds known) {key : KernelKey} (asked : known key) :
    cache.Gives known key (cache.lower key).1 (cache.lower key).2 := by
  rcases cache.recent.request_cases KernelKey.same key (fun _ => cache.ready.size) with
    ⟨entry, member, same, number, kept⟩ | ⟨number, kept⟩
  · obtain ⟨entryKnown, held⟩ := holds entry member
    obtain ⟨_, present, _⟩ := Option.map_eq_some_iff.mp held
    obtain ⟨inside, _⟩ := Array.getElem?_eq_some_iff.mp present
    simp only [lower, number, if_pos inside]
    exact ⟨⟨entry.1, entryKnown, .inr same, held⟩,
      fun other inside => holds other (kept other inside), fun _ _ => id⟩
  · simp only [lower, number, if_neg (Nat.lt_irrefl _)]
    refine ⟨⟨key, asked, .inl rfl, kernel?_push ..⟩, fun entry inside => ?_,
      fun _ _ before => kernel?_push_of_some before ..⟩
    rcases kept entry inside with rfl | before
    · exact ⟨asked, kernel?_push ..⟩
    · exact (holds entry before).imp_right fun held => kernel?_push_of_some held ..

end KernelCache

/-! ## Sessions with and without the cache -/

theorem Kernel.Indistinct.facts {left right : Kernel} (same : Indistinct left right) :
    left.facts = right.facts := by
  rw [Kernel.facts, Kernel.facts, Kernel.slotCount, Kernel.slotCount, same.domain, same.shape,
    same.cells]

namespace KernelSource

theorem lower_cached (formula : Formula) (domain : Domain) (cache : KernelCache) :
    cached.lower formula domain cache =
      ((formula.kernelKey domain).map cache.lower).mapError .state := by
  show (formula.lower domain cache).mapError Failure.state = _
  unfold Formula.lower
  cases formula.kernelKey domain <;> rfl

theorem lower_direct (formula : Formula) (domain : Domain) (state : Unit) :
    direct.lower formula domain state =
      ((formula.kernelKey domain).map fun key => (key.kernel, ())).mapError .state := by
  show (do
    let program ← formula.usable.mapError Failure.state
    let kernel ← program.lower domain formula.tolerance
    return (kernel, ())) = _
  unfold Formula.kernelKey
  cases usable : formula.usable with
  | error => rfl
  | ok program =>
      have steps : program.isEmpty = false := by
        unfold Formula.usable at usable
        split_ifs at usable
        cases usable
        simp_all
      show (do
        let kernel ← program.lower domain formula.tolerance
        return (kernel, ())) = _
      rw [Program.lower, if_neg (by rw [steps]; nofun)]
      rfl

end KernelSource

namespace Session

open KernelSource (cached direct)

/-- Two sessions that differ only in where their kernels come from. -/
structure Alike (objects : Nat → Number) (known : KernelKey → Prop) (left : Session KernelCache Nat)
    (right : Session Unit Kernel) : Prop where
  formulas : left.formulas = right.formulas
  store : left.store = right.store
  genuine : ∀ formula ∈ left.formulas, formula.Genuine objects
  handles : List.Forall₂
    (fun number kernel => ∃ held, left.kernels.kernel? number = some held ∧
      Kernel.Indistinct held kernel) left.handles right.handles
  cache : left.kernels.Holds known

variable {objects : Nat → Number} {known : KernelKey → Prop} {left : Session KernelCache Nat}
  {right : Session Unit Kernel}

/-- What cannot be told apart gives the same answers. -/
theorem Alike.ask_eq (alike : Alike objects known left right) (number : Nat)
    {answer : Kernel → Answer}
    (same : ∀ {kernel other}, Kernel.Indistinct kernel other → answer kernel = answer other) :
    left.ask cached number answer = right.ask direct number answer := by
  unfold ask
  cases found : right.handles[number]? with
  | none =>
      have missing : left.handles[number]? = none := by
        rw [List.getElem?_eq_none_iff] at found ⊢
        exact alike.handles.length_eq.trans_le found
      rw [missing]
      rfl
  | some kernel =>
      obtain ⟨inside, rfl⟩ := List.getElem?_eq_some_iff.mp found
      have matching : number < left.handles.length := alike.handles.length_eq ▸ inside
      obtain ⟨held, holds, indistinct⟩ := alike.handles.get matching inside
      rw [List.getElem?_eq_getElem matching]
      have given : (some left.handles[number]).bind (cached.kernel? left.kernels) = some held :=
        holds
      rw [given]
      exact same indistinct

/-- Notes of use keep sessions alike. -/
theorem Alike.noteUse (alike : Alike objects known left right) (number : Nat)
    (change : KernelUse → KernelUse) :
    Alike objects known (left.noteUse cached number change)
      (right.noteUse direct number change) := by
  have rightSame : right.noteUse direct number change = right := by
    unfold Session.noteUse
    split <;> rfl
  rw [rightSame]
  unfold Session.noteUse
  split
  case h_2 => exact alike
  case h_1 handle _ =>
      have unchanged : ∀ other, (left.kernels.noteUse handle change).kernel? other =
          left.kernels.kernel? other :=
        fun other => left.kernels.kernel?_noteUse handle other change
      refine ⟨alike.formulas, alike.store, alike.genuine, ?_, fun entry member => ?_⟩
      · exact alike.handles.imp fun number kernel ⟨held, found, same⟩ =>
          ⟨held, (unchanged number).trans found, same⟩
      · exact (alike.cache entry member).imp_right fun found => (unchanged entry.2).trans found

/-- The keys of a list that have genuine constants. -/
def Among (objects : Nat → Number) (keys : List KernelKey) (key : KernelKey) : Prop :=
  key ∈ keys ∧ ∀ constant ∈ key.constants, constant.Genuine objects

/-- A kernel is given to both sessions, and it cannot be told from where it comes. -/
theorem Alike.lower {keys : List KernelKey}
    (agree : ∀ left ∈ keys, ∀ right ∈ keys, left.same right = true → left.Agrees right)
    (alike : Alike objects (Among objects keys) left right) (number : Nat) (domain : Domain)
    (asked : ∀ key ∈ (Request.lower number domain).key? left.formulas, key ∈ keys) :
    (left.step cached objects (.lower number domain)).1 =
        (right.step direct objects (.lower number domain)).1 ∧
      Alike objects (Among objects keys) (left.step cached objects (.lower number domain)).2
        (right.step direct objects (.lower number domain)).2 := by
  simp only [step, ← alike.formulas]
  cases found : left.formulas[number]? with
  | none => exact ⟨rfl, alike⟩
  | some formula =>
      simp only [KernelSource.lower_cached, KernelSource.lower_direct]
      cases keyed : formula.kernelKey domain with
      | error => exact ⟨rfl, alike⟩
      | ok key =>
          have amongKey : Among objects keys key := by
            refine ⟨asked key ?_, ?_⟩
            · simp only [Request.key?, found, Option.bind_some, keyed]
              rfl
            · exact Formula.genuine_kernelKey (alike.genuine _ (List.mem_of_getElem? found)) keyed
          have gives := KernelCache.gives_lower alike.cache amongKey
          obtain ⟨entry, entryKnown, same, held⟩ := gives.found
          have indistinct : Kernel.Indistinct entry.kernel key.kernel := by
            rcases same with rfl | same
            · exact .refl _
            · exact (Kernel.indistinct_of_same amongKey.2 entryKnown.2 same
                (agree key amongKey.1 entry entryKnown.1 same)).symm
          have next : Alike objects (Among objects keys)
              { left with handles := left.handles ++ [(left.kernels.lower key).1]
                          kernels := (left.kernels.lower key).2 }
              { right with formulas := left.formulas
                           handles := right.handles ++ [key.kernel] } := by
            refine ⟨rfl, alike.store, alike.genuine, ?_, gives.holds⟩
            refine List.rel_append (alike.handles.imp fun number kernel ⟨held, found, same⟩ =>
              ⟨held, gives.stays _ _ found, same⟩) (.cons ⟨entry.kernel, held, indistinct⟩ .nil)
          refine ⟨?_, next⟩
          have lengths : left.handles.length = right.handles.length := alike.handles.length_eq
          show ask cached _ left.handles.length _ = ask direct _ right.handles.length _
          rw [lengths]
          exact next.ask_eq _ fun same => congrArg Answer.lowered same.facts

/-- A request has the same answer in both sessions, and they stay alike. -/
theorem Alike.step {keys : List KernelKey}
    (agree : ∀ left ∈ keys, ∀ right ∈ keys, left.same right = true → left.Agrees right)
    (alike : Alike objects (Among objects keys) left right) (request : Request)
    (asked : ∀ key ∈ request.key? left.formulas, key ∈ keys) :
    (left.step cached objects request).1 = (right.step direct objects request).1 ∧
      Alike objects (Among objects keys) (left.step cached objects request).2
        (right.step direct objects request).2 := by
  -- Formulas change alike on both sides.
  have changes : ∀ request : Request,
      Alike objects (Among objects keys)
        { left with formulas := (request.change objects left.formulas).1 }
        { right with formulas := (request.change objects right.formulas).1 } := by
    intro request
    refine ⟨?_, alike.store, Request.genuine_change alike.genuine request, alike.handles,
      alike.cache⟩
    exact congrArg (fun formulas => (request.change objects formulas).1) alike.formulas
  have answers : ∀ request : Request, (request.change objects left.formulas).2 =
      (request.change objects right.formulas).2 := fun request =>
    congrArg (fun formulas => (request.change objects formulas).2) alike.formulas
  cases request with
  | create functions => exact ⟨answers (.create functions), changes (.create functions)⟩
  | copy number => exact ⟨answers (.copy number), changes (.copy number)⟩
  | edit number given => exact ⟨answers (.edit number given), changes (.edit number given)⟩
  | write named value =>
      refine ⟨rfl, alike.formulas, ?_, alike.genuine, alike.handles, alike.cache⟩
      exact congrArg (fun store cell => if cell = named then value else store cell) alike.store
  | lower number domain => exact alike.lower agree number domain asked
  | call number point =>
      refine ⟨?_, alike⟩
      simp only [Session.step, ← alike.store]
      exact alike.ask_eq number fun same => by rw [same.evaluate]
  | callPrepared number point =>
      refine ⟨?_, alike.noteUse number _⟩
      simp only [Session.step, ← alike.store]
      exact alike.ask_eq number fun same => by rw [same.evaluatePrepared]
  | callBatch number points =>
      refine ⟨?_, alike.noteUse number _⟩
      simp only [Session.step, ← alike.store]
      exact alike.ask_eq number fun same => by rw [same.evaluateBatch]
  | forget =>
      refine ⟨rfl, alike.formulas, alike.store, alike.genuine, alike.handles, ?_⟩
      exact fun entry member => nomatch member

/-- Formulas go their own way in a session, wherever kernels come from. -/
theorem formulas_step {σ η : Type} (source : KernelSource σ η) (session : Session σ η)
    (request : Request) : (session.step source objects request).2.formulas =
      (request.change objects session.formulas).1 := by
  cases request with
  | lower number domain =>
      simp only [Session.step]
      split
      · rfl
      · split <;> rfl
  | callPrepared number point =>
      simp only [Session.step, Session.noteUse]
      split <;> rfl
  | callBatch number points =>
      simp only [Session.step, Session.noteUse]
      split <;> rfl
  | _ => rfl

theorem Alike.answers_eq {keys : List KernelKey}
    (agree : ∀ left ∈ keys, ∀ right ∈ keys, left.same right = true → left.Agrees right)
    (alike : Alike objects (Among objects keys) left right) (requests : List Request)
    (asked : ∀ key ∈ requestedKeys objects left.formulas requests, key ∈ keys) :
    left.answers cached objects requests = right.answers direct objects requests := by
  induction requests generalizing left right with
  | nil => rfl
  | cons request rest inductionHypothesis =>
      obtain ⟨answer, next⟩ := alike.step agree request fun key member =>
        asked key (List.mem_append_left _ (Option.mem_toList.mpr member))
      have behind := inductionHypothesis next fun key member =>
        asked key (List.mem_append_right _ (formulas_step cached left request ▸ member))
      simp only [Session.answers, answer, behind]

end Session

/-- The kernel cache is invisible: in every session whose requested keys agree wherever they are the
same, the answers are those that kernels made anew would give. -/
theorem session_answers_eq (objects : Nat → Number) (store : Store) (requests : List Request)
    (agree : ∀ left ∈ requestedKeys objects [] requests,
      ∀ right ∈ requestedKeys objects [] requests, left.same right = true → left.Agrees right) :
    (Session.start .cached store).answers .cached objects requests =
      (Session.start .direct store).answers .direct objects requests :=
  Session.Alike.answers_eq agree
    ⟨rfl, rfl, fun _ member => absurd member List.not_mem_nil, .nil,
      fun _ member => absurd member List.not_mem_nil⟩ requests fun _ => id

/-- A session in which two formulas that push one object each are lowered, and the second kernel is
called. -/
def pairOfConstants : List Request :=
  [.create [], .edit 0 (.appendConstant 0), .create [], .edit 1 (.appendConstant 1),
    .lower 0 .real, .lower 1 .real, .call 1 []]

/-- The whole number two and the double two, which are equal. -/
def twos : Nat → Number
  | 0 => .int 2
  | _ => .real 2

/-- The kernel of a formula of the one serves the other as well. -/
theorem session_answers_eq_twos :
    (∀ left ∈ requestedKeys twos [] pairOfConstants,
      ∀ right ∈ requestedKeys twos [] pairOfConstants,
        left.same right = true ∧ left.Agrees right) ∧
    (requestedKeys twos [] pairOfConstants).length = 2 ∧
    (Session.start .cached fun _ => .real 0).answers .cached twos pairOfConstants =
      (Session.start .direct fun _ => .real 0).answers .direct twos pairOfConstants := by
  have agree : ∀ left ∈ requestedKeys twos [] pairOfConstants,
      ∀ right ∈ requestedKeys twos [] pairOfConstants,
        left.same right = true ∧ left.Agrees right := by decide
  exact ⟨agree, by decide,
    session_answers_eq twos _ pairOfConstants fun left inLeft right inRight _ =>
      (agree left inLeft right inRight).2⟩

/-- Both zeros, which are equal. -/
def zeros : Nat → Number
  | 0 => .real 0
  | _ => .real (-0)

/-- The sign of a scalar that was answered. -/
def Answer.sign? : Answer → Option Bool
  | .output ⟨_, .ok (.scalar value)⟩ => some (Binary64.signBit value.toFloat)
  | _ => none

/-- The keys of formulas of the two zeros are the same, but they do not agree: the cache gives
positive zero for negative zero. -/
theorem session_answers_ne_zeros :
    (∀ left ∈ requestedKeys zeros [] pairOfConstants,
      ∀ right ∈ requestedKeys zeros [] pairOfConstants, left.same right = true) ∧
    (Session.start .cached fun _ => .real 0).answers .cached zeros pairOfConstants ≠
      (Session.start .direct fun _ => .real 0).answers .direct zeros pairOfConstants := by
  refine ⟨by decide, fun same => ?_⟩
  have signs := congrArg (List.map Answer.sign?) same
  revert signs
  decide

end Formulary
