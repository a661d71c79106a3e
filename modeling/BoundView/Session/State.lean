import BoundView.Component.Mount
import BoundView.Session.Reply
import BoundView.Session.Script

/-!
# The state of a session

A session knows the things of its world by names, one table for each kind, and keeps the record of
what ran inside handlers. Its handlers are scripts that know where they were registered.

Names hold what they mean: binding a name to a component or a subscription lets go of what the name
meant before.
-/

namespace BoundView.Session

open BoundView.Dom (Document NodeId)

/-- **The handlers of a session.** -/
inductive Callback where
  | listener (name : String) (document : DocumentId) (script : Script)
  /-- A method, with the name of the component that it was made for. -/
  | method (name component : String) (script : Script)
  /-- A hook of the component of this name. -/
  | hook (place component : String) (script : Script)
  /-- A subscriber, with the name of the component whose key it was registered for. -/
  | subscriber (name : String) (component : Option String) (script : Script)
  /-- Records that a listener of a template rendered by itself was reached. -/
  | recorder (model : Bool) (name : String)
  deriving Inhabited

/-- **A table of names.** -/
abbrev Names (α : Type) := List (String × α)

namespace Names

variable {α : Type}

/-- Binds a name, in the place of what it meant. -/
def bind (names : Names α) (name : String) (a : α) : Names α :=
  match names with
  | [] => [(name, a)]
  | (other, b) :: rest => if other = name then (name, a) :: rest else (other, b) :: bind rest name a

/-- Forgets a name. -/
def erase (names : Names α) (name : String) : Names α := names.filter (·.1 != name)

end Names

/-- **What a session keeps.** -/
structure State where
  documents : Names DocumentId
  cells : Names CellId
  stores : Names Store
  subscriptions : Names SubscriberId
  listeners : Names Nat
  templates : Names Template
  components : Names ComponentId
  /-- What ran inside handlers during the present step, oldest first. -/
  calls : Array Call

/-- A session that knows no names. -/
def State.empty : State := ⟨[], [], [], [], [], [], [], #[]⟩

/-- The world of a session. -/
abbrev SessionWorld := World Callback State

/-- A computation of a session. -/
abbrev SessionRun (α : Type) := Run Callback State α

/-- **A computation that may fail** without ending the session's step. -/
abbrev Act (α : Type) := ExceptT Failure (Run Callback State) α

/-- **Where an action runs.** -/
structure Context where
  /-- The name of the place in the record of calls. -/
  place : String
  /-- The document at hand, of a listener. -/
  document : Option DocumentId
  /-- The component at hand. -/
  component : Option ComponentId
  /-- The name of the component meant where none is named. -/
  componentName : String
  event : Option EventId
  /-- The value that a subscriber was told. -/
  argument : Option Value

namespace Context

/-- The place of the steps themselves. -/
def top : Context := ⟨"top", none, none, "vm", none, none⟩

end Context

/-! ## Names -/

/-- Changes the session's state. -/
def modifyState (f : State → State) : SessionRun Unit := modify (·.modifyHost f)

/-- Records a call. -/
def record (call : Call) : SessionRun Unit :=
  modifyState fun s => { s with calls := s.calls.push call }

/-- What a name means in one of the tables. -/
def find {α : Type} (table : State → Names α) (name : String) : Act α := do
  match (table (← get).host).lookup name with
  | some a => pure a
  | none => throw (.unbound name)

/-- Binds a name to a component, which the name then holds. -/
def bindComponent (name : String) (id : ComponentId) : SessionRun Unit := do
  let old := (← get).host.components.lookup name
  modify (·.holdComponent id)
  modifyState fun s => { s with components := s.components.bind name id }
  match old with
  | some old => modify (·.releaseComponent old)
  | none => pure ()

/-- Unbinds the name of a component, and says whether it was bound. -/
def unbindComponent (name : String) : SessionRun Bool := do
  match (← get).host.components.lookup name with
  | none => pure false
  | some id =>
    modifyState fun s => { s with components := s.components.erase name }
    modify (·.releaseComponent id)
    pure true

/-- Binds a name to a subscription, which is held already. -/
def bindSubscription (name : String) (id : SubscriberId) : SessionRun Unit := do
  let old := (← get).host.subscriptions.lookup name
  modifyState fun s => { s with subscriptions := s.subscriptions.bind name id }
  match old with
  | some old => modify (·.releaseSubscriber old)
  | none => pure ()

/-- Drops a subscription, and says whether its name was bound. -/
def dropSubscription (name : String) : SessionRun Bool := do
  match (← get).host.subscriptions.lookup name with
  | none => pure false
  | some id =>
    modifyState fun s => { s with subscriptions := s.subscriptions.erase name }
    modify (·.releaseSubscriber id)
    pure true

/-- Adds a document and binds a name to it. -/
def bindNewDocument (name : String) (d : Document (Action Callback)) : SessionRun Unit := do
  let id := (← get).documents.size
  modify fun w => { w with documents := w.documents.push d }
  modifyState fun s => { s with documents := s.documents.bind name id }

/-! ## Computations that may fail -/

/-- A computation that may not fail. -/
def act {α : Type} (body : SessionRun α) : Act α := ExceptT.lift body

/-- The result of a request to a component. -/
def ofComponent {α : Type} (body : SessionRun (Except Component.Error α)) : Act α := do
  match ← act body with
  | .ok a => pure a
  | .error e => throw (.component e)

/-- Acts on behalf of a component, which is held meanwhile. -/
def onBehalf {α : Type} (id : ComponentId) (body : Act α) : Act α :=
  ExceptT.mk (Run.holding id body.run)

end BoundView.Session
