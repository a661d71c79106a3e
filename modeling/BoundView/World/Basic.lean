import BoundView.Config
import BoundView.Template.Patch

/-!
# The world of a program

Documents, events, cells, subscribers and components refer to one another, and a listener or a
subscriber may change any of them while it runs. The world holds all of them in tables, and a
reference is a number in a table.

What the caller wants to run is named by a value of the type `κ`; the world only carries such
values around. The caller says once what it means to run one (`Handle`), and may keep a state `σ`
of its own in the world.

A listener either runs such a value or belongs to a component: it calls a method of the component,
or carries an edited value back to a key. A subscriber likewise runs such a value or patches what a
component has rendered for a key.

Subscribers and components are **held**: by whoever made them, and by the activities that are
running on their behalf. One that nobody holds any more is dead: it stays in its table, but a
notification passes it over, and its listeners do nothing.
-/

namespace BoundView

open BoundView.Dom (Document NodeId)
open BoundView.Interpolation (Lookup)

abbrev DocumentId := Nat
abbrev EventId := Nat
abbrev CellId := Nat
abbrev SubscriberId := Nat
abbrev ComponentId := Nat

/-- **A dispatched event.** -/
structure Event where
  type : String
  target : NodeId
  bubbles : Bool
  /-- The node whose listeners are running. -/
  current : Option NodeId
  /-- A listener asked that no further node receive the event. -/
  stopped : Bool
  deriving DecidableEq, Repr, Inhabited

/-- An event that nobody has received yet. -/
def Event.fresh (type : String) (target : NodeId) (bubbles : Bool) : Event :=
  ⟨type, target, bubbles, none, false⟩

/-- **What a listener does.** -/
inductive Action (κ : Type) where
  | handler (run : κ)
  /-- Calls a method of a component. -/
  | method (component : ComponentId) (name : String)
  /-- Writes the value of the event's target into a key of a component. -/
  | model (component : ComponentId) (key : String)
  deriving DecidableEq, Repr, Inhabited

/-- **What a subscriber does.** -/
inductive Reaction (κ : Type) where
  | handler (run : κ)
  /-- Brings what a component has rendered for a key up to date. -/
  | patch (component : ComponentId) (key : String)
  deriving DecidableEq, Repr

/-- **A subscriber** of a cell. -/
structure Subscriber (κ : Type) where
  reaction : Reaction κ
  holders : Nat
  deriving DecidableEq, Repr

/-- **A cell**: a value, the number of writes to it, and its subscribers, oldest first. Dead
subscribers stay in the list until the next write. -/
structure Cell where
  value : Value
  version : Nat
  subscribers : List SubscriberId
  deriving Inhabited

/-- **A store**: its keys, in the order of their declaration, with their cells. -/
structure Store where
  entries : List (String × CellId)
  deriving DecidableEq, Repr, Inhabited

/-- **A component** on an element of a document. -/
structure Component (κ : Type) where
  document : DocumentId
  root : NodeId
  el : String
  store : Store
  methods : List (String × κ)
  /-- The compiled template; `none` before compilation. -/
  template : Option Template
  options : Options
  /-- The number of times that rendered nodes were brought up to date. -/
  scans : Nat
  /-- The subscribers that patch rendered nodes. -/
  watchers : List SubscriberId
  holders : Nat
  deriving Inhabited

/-- **The world.** -/
structure World (κ σ : Type) where
  documents : Array (Document (Action κ))
  events : Array Event
  cells : Array Cell
  subscribers : Array (Subscriber κ)
  components : Array (Component κ)
  /-- The traces so far, oldest first. -/
  traces : Array Trace
  /-- The caller's own state. -/
  host : σ

/-- **A failure that ends every running activity.** -/
inductive Fault where
  /-- A document was asked for the impossible. -/
  | document (fault : Dom.Fault)
  /-- A handler gave up. -/
  | raised (message : String)
  /-- Handlers called one another without end. -/
  | exhausted
  deriving DecidableEq, Repr

/-- The text of a fault. -/
def Fault.message : Fault → String
  | .document fault => fault.message
  | .raised message => message
  | .exhausted => "handlers call one another without end"

/-- **A computation on a world.** A fault keeps the world as it was when the fault arose. -/
abbrev Run (κ σ α : Type) := EStateM Fault (World κ σ) α

/-- **What a handler is run for.** -/
inductive Occasion where
  /-- A listener received an event. -/
  | event (event : EventId)
  /-- A method of a component was called for an event. -/
  | method (component : ComponentId) (event : EventId)
  /-- A cell was given a value. -/
  | write (value : Value)
  /-- A component reached a point of its life. -/
  | hook (component : ComponentId)
  deriving Inhabited

/-- **What it means to run a handler.** -/
abbrev Handle (κ σ : Type) := κ → Occasion → Run κ σ Unit

namespace World

variable {κ σ : Type} (w : World κ σ)

/-- A world with nothing in it but the caller's state. -/
def ofHost (host : σ) : World κ σ := ⟨#[], #[], #[], #[], #[], #[], host⟩

/-! ## Reading -/

/-- The document of this number. -/
def document (id : DocumentId) : Document (Action κ) := w.documents.getD id .empty

/-- The event of this number. -/
def event (id : EventId) : Event := w.events.getD id default

/-- The cell of this number. -/
def cell (id : CellId) : Cell := w.cells.getD id default

/-- How many hold a subscriber. -/
def subscriberHolders (id : SubscriberId) : Nat := (w.subscribers[id]?).elim 0 Subscriber.holders

/-- Whether somebody holds a subscriber. -/
def isLive (id : SubscriberId) : Bool := 0 < w.subscriberHolders id

/-- The component of this number. -/
def component (id : ComponentId) : Component κ := w.components.getD id default

/-- Whether somebody holds a component. -/
def isAlive (id : ComponentId) : Bool := 0 < (w.component id).holders

/-! ## Writing -/

/-- Replaces a document. -/
def setDocument (id : DocumentId) (d : Document (Action κ)) : World κ σ :=
  { w with documents := w.documents.setIfInBounds id d }

/-- Changes an event. -/
def modifyEvent (id : EventId) (f : Event → Event) : World κ σ :=
  { w with events := w.events.modify id f }

/-- Changes a cell. -/
def modifyCell (id : CellId) (f : Cell → Cell) : World κ σ :=
  { w with cells := w.cells.modify id f }

/-- Changes the number of those who hold a subscriber. -/
def modifyHolders (id : SubscriberId) (f : Nat → Nat) : World κ σ :=
  { w with subscribers := w.subscribers.modify id fun s => { s with holders := f s.holders } }

/-- Changes a component. -/
def modifyComponent (id : ComponentId) (f : Component κ → Component κ) : World κ σ :=
  { w with components := w.components.modify id f }

/-- Changes the caller's state. -/
def modifyHost (f : σ → σ) : World κ σ := { w with host := f w.host }

/-- Adds traces. -/
def tell (traces : List Trace) : World κ σ := { w with traces := w.traces ++ traces.toArray }

/-- Holds a subscriber once more. -/
def holdSubscriber (id : SubscriberId) : World κ σ := w.modifyHolders id (· + 1)

/-- Holds a subscriber once less. -/
def releaseSubscriber (id : SubscriberId) : World κ σ := w.modifyHolders id (· - 1)

/-- Holds a component once more. -/
def holdComponent (id : ComponentId) : World κ σ :=
  w.modifyComponent id fun c => { c with holders := c.holders + 1 }

/-- Holds a component once less; one that nobody holds any more lets go of its watchers. -/
def releaseComponent (id : ComponentId) : World κ σ :=
  let c := w.component id
  let released := w.modifyComponent id fun c => { c with holders := c.holders - 1 }
  if c.holders = 1 then c.watchers.foldl releaseSubscriber released else released

end World

namespace Run

variable {κ σ α : Type}

/-- Adds traces. -/
def tell (traces : List Trace) : Run κ σ Unit := modify (·.tell traces)

/-- The result of a request to a document, or its fault. -/
def ofDocument (result : Except Dom.Fault α) : Run κ σ α :=
  match result with
  | .ok a => pure a
  | .error f => throw (.document f)

/-- Runs an activity on behalf of a component, which is held until the activity ends. -/
def holding (id : ComponentId) (body : Run κ σ α) : Run κ σ α := do
  modify (·.holdComponent id)
  try
    let a ← body
    modify (·.releaseComponent id)
    pure a
  catch f =>
    modify (·.releaseComponent id)
    throw f

/-- Reads a document. -/
def readDocument (id : DocumentId) (read : Document (Action κ) → Except Dom.Fault α) :
    Run κ σ α := do
  ofDocument (read ((← get).document id))

/-- Edits a document; a fault changes nothing. -/
def editDocument (id : DocumentId)
    (edit : Document (Action κ) → Except Dom.Fault (α × Document (Action κ))) : Run κ σ α := do
  let (a, d) ← ofDocument (edit ((← get).document id))
  modify (·.setDocument id d)
  pure a

end Run

end BoundView
