/-!
# Progress reports

A long evaluation reports what it is doing, how far it has come, and asks now and then whether it
should stop. Whoever listens is a handler: a state with one operation for each report. The handler
of this library keeps a stack of messages; a watch is such a stack that remembers all it was told
and asks for an end once a mark is reached.
-/

namespace Formulary

/-- A listener to progress reports, as operations on its state. -/
structure ProgressHandler (σ : Type) where
  push : String → σ → σ
  pop : σ → σ
  setPercentage : Float → σ → σ
  shouldTerminate : σ → Bool × σ

/-- A stack of messages with the percentage done and a wish to stop. -/
structure ProgressStack where
  /-- The messages, the latest first. -/
  messages : List String := []
  percentage : Float := 0
  terminate : Bool := false

namespace ProgressStack

/-- A new message starts from nothing done. -/
def push (message : String) (stack : ProgressStack) : ProgressStack :=
  { stack with messages := message :: stack.messages, percentage := 0 }

/-- The message before the latest comes back; without messages nothing changes. -/
def pop (stack : ProgressStack) : ProgressStack :=
  { stack with messages := stack.messages.tail }

/-- Sets the percentage done. -/
def setPercentage (percentage : Float) (stack : ProgressStack) : ProgressStack :=
  { stack with percentage }

/-- Wishes for an end. -/
def setTerminate (stack : ProgressStack) : ProgressStack :=
  { stack with terminate := true }

/-- Takes back the wish for an end. -/
def unsetTerminate (stack : ProgressStack) : ProgressStack :=
  { stack with terminate := false }

/-- The latest message, or an empty text. -/
def message (stack : ProgressStack) : String :=
  stack.messages.headD ""

/-- A stack as a handler. -/
def handler : ProgressHandler ProgressStack where
  push := push
  pop := pop
  setPercentage := setPercentage
  shouldTerminate stack := (stack.terminate, stack)

end ProgressStack

/-- A stack that remembers what it was told, and asks for an end when the percentage reaches a
mark. -/
structure ProgressWatch where
  stack : ProgressStack := {}
  stopAt : Option Float := none
  /-- All percentages that were set, in order. -/
  percentages : Array Float := #[]
  /-- All messages that were pushed, in order. -/
  pushed : Array String := #[]

namespace ProgressWatch

/-- A new message, which is also remembered. -/
def push (message : String) (watch : ProgressWatch) : ProgressWatch :=
  { watch with stack := watch.stack.push message, pushed := watch.pushed.push message }

/-- Takes back the latest message; it stays remembered. -/
def pop (watch : ProgressWatch) : ProgressWatch :=
  { watch with stack := watch.stack.pop }

/-- Sets the percentage done; at the mark or beyond it the watch wishes for an end. -/
def setPercentage (percentage : Float) (watch : ProgressWatch) : ProgressWatch :=
  let stack := watch.stack.setPercentage percentage
  let reached := watch.stopAt.any fun mark => mark ≤ percentage
  { watch with
    stack := if reached then stack.setTerminate else stack
    percentages := watch.percentages.push percentage }

/-- A watch as a handler. -/
def handler : ProgressHandler ProgressWatch where
  push := push
  pop := pop
  setPercentage := setPercentage
  shouldTerminate watch := (watch.stack.terminate, watch)

end ProgressWatch

end Formulary
