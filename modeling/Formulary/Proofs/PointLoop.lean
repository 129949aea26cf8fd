import Mathlib.Data.List.Forall2
import Formulary.Formula
import Formulary.Proofs.Outcome

/-!
# Point loops and their handlers

An evaluation at several points talks to a handler that may do what it likes with every call, and
may wish for an end at any point and take the wish back. What the loop does is therefore told by the
calls that it makes: the handler ends in the state that these calls lead to, whatever handler it
is, so a handler that remembers its calls remembers exactly these.

A loop is described by the number of points that it completed and by its ending. The description is
proved of a loop that already completed some points, by induction on the points that are left.
-/

namespace Formulary

/-! ## Calls of handlers -/

/-- A call of a handler. -/
inductive ProgressCall
  | push (message : String)
  | pop
  | setPercentage (percentage : Float)
  | shouldTerminate

namespace ProgressHandler

variable {σ : Type} (handler : ProgressHandler σ)

/-- The state of a handler after a call. -/
def perform (state : σ) : ProgressCall → σ
  | .push message => handler.push message state
  | .pop => handler.pop state
  | .setPercentage percentage => handler.setPercentage percentage state
  | .shouldTerminate => (handler.shouldTerminate state).2

/-- The state of a handler after calls in order. -/
def after (calls : List ProgressCall) (state : σ) : σ :=
  calls.foldl handler.perform state

/-- What a handler answers when it is asked, after calls, whether to stop. -/
def wantsEnd (calls : List ProgressCall) (state : σ) : Bool :=
  (handler.shouldTerminate (handler.after calls state)).1

@[simp]
theorem after_nil (state : σ) : handler.after [] state = state := rfl

@[simp]
theorem after_cons (call : ProgressCall) (rest : List ProgressCall) (state : σ) :
    handler.after (call :: rest) state = handler.after rest (handler.perform state call) := rfl

@[simp]
theorem after_append (first second : List ProgressCall) (state : σ) :
    handler.after (first ++ second) state = handler.after second (handler.after first state) :=
  List.foldl_append

end ProgressHandler

/-! ## Runs of the loop -/

/-- The calls before a number of points, out of a total, from the point of an index on: a question
whether to stop, and how far the loop has come. -/
def rounds (total first count : Nat) : List ProgressCall :=
  (List.range' first count).flatMap fun index =>
    [.shouldTerminate, .setPercentage (Formula.percentage index total)]

@[simp]
theorem rounds_zero (total first : Nat) : rounds total first 0 = [] := rfl

theorem rounds_succ (total first count : Nat) :
    rounds total first (count + 1) =
      .shouldTerminate :: .setPercentage (Formula.percentage first total) ::
        rounds total (first + 1) count := rfl

/-- How an evaluation at several points ends. -/
inductive PointEnding
  | finished
  | terminated
  | failed (cause : Fault)

namespace PointEnding

/-- The calls before the point at which the loop ended. -/
def calls (total count : Nat) : PointEnding → List ProgressCall
  | finished => []
  | terminated => [.shouldTerminate]
  | failed _ => [.shouldTerminate, .setPercentage (Formula.percentage count total)]

/-- The fault that ended the loop. -/
def fault? : PointEnding → Option Fault
  | failed cause => some cause
  | _ => none

/-- The messages about the ending. -/
def notices (total count : Nat) : PointEnding → List String
  | terminated => [Formula.terminationNotice count total]
  | _ => []

/-- What the loop gives. -/
def outcome (values : List Formula.PointValue) :
    PointEnding → Except Fault (List Formula.PointValue)
  | failed cause => .error cause
  | _ => .ok values

/-- The number of points that were evaluated, completed or not. -/
def evaluated (count : Nat) : PointEnding → Nat
  | failed _ => count + 1
  | _ => count

@[simp]
theorem evaluated_succ (count : Nat) (ending : PointEnding) :
    ending.evaluated (count + 1) = ending.evaluated count + 1 := by
  cases ending <;> rfl

end PointEnding

variable {σ : Type} {handler : ProgressHandler σ} {total : Nat}
  {value : List Number → Logged Degradation Formula.PointValue}

/-- A run through points, of which the first has an index out of a total, by the values of the
points that it completed and its ending. The points before the end gave values and the handler did
not want to stop before them; what ended the run holds at the first point after them. -/
structure PointRun (handler : ProgressHandler σ) (total : Nat)
    (value : List Number → Logged Degradation Formula.PointValue) (first : Nat) (state : σ)
    (points : List (List Number)) (values : List Formula.PointValue) (ending : PointEnding) :
    Prop where
  completed : List.Forall₂ (fun point found => (value point).result = .ok found)
    (points.take values.length) values
  continues : ∀ index < values.length, handler.wantsEnd (rounds total first index) state = false
  ends :
    match ending, points[values.length]? with
    | .finished, none => True
    | .terminated, some _ => handler.wantsEnd (rounds total first values.length) state = true
    | .failed cause, some point =>
      handler.wantsEnd (rounds total first values.length) state = false ∧
        (value point).result = .error cause
    | _, _ => False

/-- The state in which a loop ends after a run. -/
def Formula.PointLoop.ended (loop : Formula.PointLoop σ) (handler : ProgressHandler σ)
    (total : Nat) (value : List Number → Logged Degradation Formula.PointValue)
    (points : List (List Number))
    (values : List Formula.PointValue) (ending : PointEnding) : Formula.PointLoop σ where
  done := values.reverse ++ loop.done
  degradations := loop.degradations ++
    (points.take (ending.evaluated values.length)).flatMap fun point => (value point).log
  notices := ending.notices total (loop.done.length + values.length)
  fault := ending.fault?
  handler := handler.after
    (rounds total loop.done.length values.length ++
      ending.calls total (loop.done.length + values.length)) loop.handler

/-- A loop that completed one more point ends where it would end without having stopped there. -/
theorem Formula.PointLoop.ended_cons (loop : Formula.PointLoop σ) (point : List Number)
    (rest : List (List Number)) (found : Formula.PointValue) (values : List Formula.PointValue)
    (ending : PointEnding) :
    loop.ended handler total value (point :: rest) (found :: values) ending =
      Formula.PointLoop.ended
        { loop with
            handler := handler.after (rounds total loop.done.length 1) loop.handler
            degradations := loop.degradations ++ (value point).log
            done := found :: loop.done }
        handler total value rest values ending := by
  simp [Formula.PointLoop.ended, rounds_succ, Nat.add_right_comm, Nat.add_assoc]

/-- A point that gives a value comes before a run through the others. -/
theorem PointRun.cons {first : Nat} {state : σ} {point : List Number} {rest : List (List Number)}
    {found : Formula.PointValue} {values : List Formula.PointValue} {ending : PointEnding}
    (continues : (handler.shouldTerminate state).1 = false)
    (gives : (value point).result = .ok found)
    (run : PointRun handler total value (first + 1)
      (handler.after (rounds total first 1) state) rest values ending) :
    PointRun handler total value first state (point :: rest) (found :: values) ending where
  completed := .cons gives run.completed
  continues
    | 0, _ => continues
    | index + 1, inside => run.continues index (Nat.lt_of_succ_lt_succ inside)
  ends := run.ends

/-- The loop runs through its points and ends as the run does. -/
theorem pointLoop_runs (handler : ProgressHandler σ) (total : Nat)
    (value : List Number → Logged Degradation Formula.PointValue) (points : List (List Number))
    (loop : Formula.PointLoop σ)
    (unhurt : loop.fault = none) (silent : loop.notices = []) :
    ∃ values ending,
      PointRun handler total value loop.done.length loop.handler points values ending ∧
      Formula.pointLoop handler total value points loop =
        loop.ended handler total value points values ending := by
  induction points generalizing loop with
  | nil =>
      refine ⟨[], .finished, ⟨.nil, nofun, trivial⟩, ?_⟩
      simp [Formula.pointLoop, Formula.PointLoop.ended, PointEnding.notices, PointEnding.fault?,
        PointEnding.calls, ← unhurt, ← silent]
  | cons point rest inductionHypothesis =>
      cases asked : (handler.shouldTerminate loop.handler).1 with
      | true =>
          refine ⟨[], .terminated, ⟨.nil, nofun, asked⟩, ?_⟩
          simp [Formula.pointLoop, asked, Formula.PointLoop.ended, PointEnding.notices,
            PointEnding.fault?, PointEnding.calls, PointEnding.evaluated,
            ProgressHandler.perform, unhurt]
      | false =>
          cases gives : (value point).result with
          | error cause =>
              refine ⟨[], .failed cause, ⟨.nil, nofun, asked, gives⟩, ?_⟩
              simp [Formula.pointLoop, asked, gives, Formula.PointLoop.ended, PointEnding.notices,
                PointEnding.fault?, PointEnding.calls, PointEnding.evaluated,
                ProgressHandler.perform, silent]
          | ok found =>
              obtain ⟨values, ending, run, ended⟩ := inductionHypothesis
                { loop with
                    handler := handler.after (rounds total loop.done.length 1) loop.handler
                    degradations := loop.degradations ++ (value point).log
                    done := found :: loop.done } unhurt silent
              refine ⟨found :: values, ending, run.cons asked gives, ?_⟩
              rw [Formula.PointLoop.ended_cons, ← ended]
              simp only [Formula.pointLoop, asked, gives]
              rfl

/-! ## Reported evaluations -/

/-- The calls of an evaluation at several points under a title: whatever ends it, the handler is
told how many points were completed, and the title is taken back. -/
def PointEnding.allCalls (title : String) (total count : Nat) (ending : PointEnding) :
    List ProgressCall :=
  .push title :: rounds total 0 count ++ ending.calls total count ++
    [.setPercentage (if total = 0 then 100 else Formula.percentage count total), .pop]

/-- An outcome at several points under a title, by the values of the completed points and the
ending. -/
structure Formula.PointsOutcome.Reports (outcome : Formula.PointsOutcome σ)
    (handler : ProgressHandler σ) (title : String)
    (value : List Number → Logged Degradation Formula.PointValue) (points : List (List Number))
    (state : σ) (values : List Formula.PointValue) (ending : PointEnding) : Prop where
  run : PointRun handler points.length value 0 (handler.push title state) points values ending
  values_eq : outcome.values = ending.outcome values
  degradations_eq : outcome.degradations =
    (points.take (ending.evaluated values.length)).flatMap fun point => (value point).log
  notices_eq : outcome.notices = ending.notices points.length values.length
  handler_eq : outcome.handler =
    handler.after (ending.allCalls title points.length values.length) state

namespace Formula

variable (formula : Formula) (store : Store) (domain : Domain) (program : Program)

/-- An evaluation at several points follows a run through them. -/
theorem runPoints_reports (handler : ProgressHandler σ) (title : String)
    (points : List (List Number)) (state : σ) :
    ∃ values ending,
      (formula.runPoints store domain program handler title points state).Reports handler title
        (formula.evaluatePoint store domain program) points state values ending := by
  obtain ⟨values, ending, run, ended⟩ :=
    pointLoop_runs handler points.length (formula.evaluatePoint store domain program) points
      { handler := handler.push title state } rfl rfl
  refine ⟨values, ending, run, ?_, ?_, ?_, ?_⟩
  · simp only [runPoints, ended, PointLoop.ended, List.append_nil, List.reverse_reverse]
    cases ending <;> rfl
  · simp [runPoints, ended, PointLoop.ended]
  · simp [runPoints, ended, PointLoop.ended]
  · simp [runPoints, ended, PointLoop.ended, PointEnding.allCalls, ProgressHandler.perform]

/-- A usable formula with a text is evaluated under it. -/
theorem reportPoints_eq {shown : String} {handler : ProgressHandler σ}
    {points : List (List Number)} {state : σ} (usable : formula.usable = .ok program)
    (named : formula.text store = .ok shown) :
    formula.reportPoints store domain handler points state =
      .ok (formula.runPoints store domain program handler s!"evaluating {shown}" points state) := by
  simp [reportPoints, usable, named, Except.mapError, bind, Except.bind, pure, Except.pure]

/-- The values at a single point are the value there. -/
theorem runPoints_singleton (point : List Number) :
    (formula.runPoints store domain program silentHandler "" [point] ()).values =
      (formula.evaluatePoint store domain program point).result.map fun found => [found] := by
  simp only [runPoints, pointLoop, silentHandler]
  cases (formula.evaluatePoint store domain program point).result <;> rfl

end Formula

/-! ## Stacks of messages -/

/-- A handler keeps a stack of messages, which only pushing and popping change. -/
structure ProgressHandler.StacksMessages (handler : ProgressHandler σ)
    (messages : σ → List String) : Prop where
  push : ∀ message state, messages (handler.push message state) = message :: messages state
  pop : ∀ state, messages (handler.pop state) = (messages state).tail
  setPercentage : ∀ percentage state,
    messages (handler.setPercentage percentage state) = messages state
  shouldTerminate : ∀ state, messages (handler.shouldTerminate state).2 = messages state

/-- A progress stack keeps its messages on a stack. -/
theorem ProgressStack.stacksMessages :
    ProgressStack.handler.StacksMessages ProgressStack.messages :=
  ⟨fun _ _ => rfl, fun _ => rfl, fun _ _ => rfl, fun _ => rfl⟩

/-- A watch keeps the messages of its stack. -/
theorem ProgressWatch.stacksMessages :
    ProgressWatch.handler.StacksMessages fun watch => watch.stack.messages where
  push _ _ := rfl
  pop _ := rfl
  setPercentage percentage watch := by
    simp only [ProgressWatch.handler, ProgressWatch.setPercentage]
    split <;> rfl
  shouldTerminate _ := rfl

/-- Questions and percentages leave the messages as they are. -/
theorem ProgressHandler.StacksMessages.after_rounds {messages : σ → List String}
    (stacked : handler.StacksMessages messages) (first count : Nat) (state : σ) :
    messages (handler.after (rounds total first count) state) = messages state := by
  induction count generalizing first state with
  | zero => rfl
  | succ count inductionHypothesis =>
      rw [rounds_succ, after_cons, after_cons, inductionHypothesis]
      exact (stacked.setPercentage _ _).trans (stacked.shouldTerminate _)

/-- The calls before the end leave the messages as they are. -/
theorem ProgressHandler.StacksMessages.after_calls {messages : σ → List String}
    (stacked : handler.StacksMessages messages) (count : Nat) (ending : PointEnding) (state : σ) :
    messages (handler.after (ending.calls total count) state) = messages state := by
  cases ending with
  | finished => rfl
  | terminated => exact stacked.shouldTerminate _
  | failed cause => exact (stacked.setPercentage _ _).trans (stacked.shouldTerminate _)

/-- After an evaluation at several points the messages are as they were before. -/
theorem Formula.PointsOutcome.Reports.messages_eq {outcome : Formula.PointsOutcome σ}
    {title : String} {points : List (List Number)} {state : σ}
    {values : List Formula.PointValue} {ending : PointEnding} {messages : σ → List String}
    (reports : outcome.Reports handler title value points state values ending)
    (stacked : handler.StacksMessages messages) : messages outcome.handler = messages state := by
  rw [reports.handler_eq]
  simp only [PointEnding.allCalls, List.cons_append, ProgressHandler.after_cons,
    ProgressHandler.after_append, ProgressHandler.after_nil, ProgressHandler.perform]
  rw [stacked.pop, stacked.setPercentage, stacked.after_calls, stacked.after_rounds, stacked.push,
    List.tail_cons]

/-! ## The protocol -/

/-- A formula that cannot be used does not call the handler. A formula with a text is evaluated at
one point after the other until the handler wants to stop or a point fails: the handler is called as
the run says, the values are those that the points give alone, and a stack of messages is left as it
was. -/
theorem reportPoints_protocol (formula : Formula) (store : Store) (domain : Domain)
    (handler : ProgressHandler σ) (points : List (List Number)) (state : σ) :
    (∀ error, formula.usable = .error error →
      formula.reportPoints store domain handler points state = .error (.state error)) ∧
    (∀ program shown, formula.usable = .ok program → formula.text store = .ok shown →
      (∀ point, ∃ alone, formula.evaluatePoints store domain [point] = .ok alone ∧
        alone.values =
          (formula.evaluatePoint store domain program point).result.map fun found => [found]) ∧
      ∃ outcome values ending,
        formula.reportPoints store domain handler points state = .ok outcome ∧
        outcome.Reports handler s!"evaluating {shown}"
          (formula.evaluatePoint store domain program) points state values ending) ∧
    (∀ stack outcome,
      formula.reportPoints store domain ProgressStack.handler points stack = .ok outcome →
        outcome.handler.messages = stack.messages) := by
  refine ⟨fun error refused => ?_, fun program shown usable named => ⟨fun point => ?_, ?_⟩,
    fun stack outcome reported => ?_⟩
  · simp [Formula.reportPoints, refused, Except.mapError, bind, Except.bind]
  · exact ⟨formula.runPoints store domain program Formula.silentHandler "" [point] (),
      by simp [Formula.evaluatePoints, usable, bind, Except.bind, pure, Except.pure],
      formula.runPoints_singleton store domain program point⟩
  · obtain ⟨values, ending, reports⟩ := formula.runPoints_reports store domain program handler
      s!"evaluating {shown}" points state
    exact ⟨_, values, ending,
      formula.reportPoints_eq store domain program usable named, reports⟩
  · obtain ⟨program, usable, reported⟩ := Outcome.bind_eq_ok_iff.mp reported
    obtain ⟨shown, named, reported⟩ := Outcome.bind_eq_ok_iff.mp reported
    cases reported
    obtain ⟨values, ending, reports⟩ := formula.runPoints_reports store domain program
      ProgressStack.handler s!"evaluating {shown}" points stack
    exact reports.messages_eq ProgressStack.stacksMessages

/-- The program of the first slot. -/
def Program.firstSlot : Program := ⟨[.argument ⟨1, Nat.one_pos⟩], ⟨1, 1, true, 1⟩, rfl⟩

/-- A formula without a program is refused, and the first slot is evaluated under its name with a
watch that listens. -/
theorem reportPoints_protocol_firstSlot :
    ({} : Formula).reportPoints (fun _ => .int 0) .real ProgressWatch.handler [[.int 5], []] {} =
      .error (.state .noProgram) ∧
    ∃ shown outcome values ending,
      ({ program := .firstSlot } : Formula).text (fun _ => .int 0) = .ok shown ∧
      ({ program := .firstSlot } : Formula).reportPoints (fun _ => .int 0) .real
        ProgressWatch.handler [[.int 5], []] {} = .ok outcome ∧
      outcome.Reports ProgressWatch.handler s!"evaluating {shown}"
        (({ program := .firstSlot } : Formula).evaluatePoint (fun _ => .int 0) .real .firstSlot)
        [[.int 5], []] {} values ending := by
  refine ⟨(reportPoints_protocol {} _ _ _ _ _).1 _ rfl, ?_⟩
  obtain ⟨-, outcome, values, ending, reported, reports⟩ :=
    (reportPoints_protocol { program := .firstSlot } (fun _ => .int 0) .real
      ProgressWatch.handler [[.int 5], []] {}).2.1 _ _ rfl rfl
  exact ⟨_, outcome, values, ending, rfl, reported, reports⟩

end Formulary
