import BoundView.Component.Write

/-!
# Dispatching events

The nodes that may receive an event are its target and, if it bubbles, the nodes above the target,
all as they are when dispatch begins. At each node the listeners for its type that are there when
dispatch arrives run in order. An event that was stopped goes to no further node, but the listeners
of the node where it was stopped all run.

The listeners of a component hold it while they run, and do nothing once it is dead.
-/

namespace BoundView

open BoundView.Dom (NodeId)

variable {κ σ : Type}

/-- The method of a name; of several methods of one name the last counts. -/
def Component.method? (c : Component κ) (name : String) : Option κ := c.methods.reverse.lookup name

namespace World

/-- Adds an event; its number is the former count of events. -/
def addEvent (w : World κ σ) (e : Event) : World κ σ := { w with events := w.events.push e }

/-- **The nodes that may receive an event**, innermost first. -/
def path (w : World κ σ) (document : DocumentId) (e : Event) : List NodeId :=
  e.target :: if e.bubbles then (w.document document).ancestors e.target else []

end World

namespace Run

variable (handle : Handle κ σ)

/-- **Calls a method of a component** for an event. -/
def call (id : ComponentId) (name : String) (event : EventId) :
    Run κ σ (Except Component.Error Unit) := do
  match ((← get).component id).method? name with
  | none => pure (.error (.unknownMethod name))
  | some run =>
    holding id (handle run (.method id event))
    pure (.ok ())

/-- A component's listener that calls a method. -/
def runMethod (id : ComponentId) (name : String) (event : EventId) : Run κ σ Unit := do
  match ← call handle id name event with
  | .ok () => pure ()
  | .error _ => tell [.unknownMethod name ((← get).event event).type]

/-- A component's listener that writes the value of the event's target into a key. -/
def runModel (id : ComponentId) (key : String) (event : EventId) : Run κ σ Unit := do
  let w ← get
  let value ← readDocument (w.component id).document (·.value (w.event event).target)
  match ← write handle id key (.str (value.getD "")) with
  | .ok () => pure ()
  | .error e => tell [.droppedWrite e.message]

/-- **One listener's turn.** -/
def runAction (event : EventId) : Action κ → Run κ σ Unit
  | .handler run => handle run (.event event)
  | .method id name => do
    if (← get).isAlive id then holding id (runMethod handle id name event)
  | .model id key => do
    if (← get).isAlive id then holding id (runModel handle id key event)

/-- Runs listeners in order. -/
def runActions (event : EventId) : List (Action κ) → Run κ σ Unit
  | [] => pure ()
  | action :: rest => do
    runAction handle event action
    runActions event rest

/-- Visits nodes in order until the event is stopped, and counts the listeners that ran. -/
def visit (document : DocumentId) (event : EventId) : List NodeId → Run κ σ Nat
  | [] => pure 0
  | node :: path => do
    discard (readDocument document (·.node node))
    let w ← get
    let actions := ((w.document document).listenersFor node (w.event event).type).map (·.action)
    modify (·.modifyEvent event fun e => { e with current := some node })
    runActions handle event actions
    if ((← get).event event).stopped then pure actions.length
    else do
      let later ← visit document event path
      pure (actions.length + later)

/-- **Dispatches an event** and counts the listeners that ran. -/
def dispatch (document : DocumentId) (event : EventId) : Run κ σ Nat := do
  let e := (← get).event event
  tell [.dispatching e.type e.target]
  let ran ← visit handle document event ((← get).path document e)
  modify (·.modifyEvent event fun e => { e with current := none })
  pure ran

/-- Makes an event and dispatches it. The answer is the event and the number of listeners that
ran. -/
def fire (document : DocumentId) (e : Event) : Run κ σ (EventId × Nat) := do
  let event := (← get).events.size
  modify (·.addEvent e)
  let ran ← dispatch handle document event
  pure (event, ran)

/-- **A click** on a node. -/
def click (document : DocumentId) (node : NodeId) : Run κ σ Nat := do
  let (_, ran) ← fire handle document (.fresh "click" node true)
  pure ran

/-- **An edit** of a node's value by a person: the value is assigned before anyone hears of it. -/
def edit (document : DocumentId) (node : NodeId) (value : String) : Run κ σ Nat := do
  discard (editDocument document (·.setValue node value))
  let (_, ran) ← fire handle document (.fresh "input" node true)
  pure ran

end Run

end BoundView
