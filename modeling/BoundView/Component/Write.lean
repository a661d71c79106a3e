import BoundView.Markup.Error
import BoundView.Selector.Basic
import BoundView.World.Store

/-!
# Writes and what follows them

A write to a key notifies the subscribers of its cell. A component's own subscriber, which comes
before all others, brings the rendered nodes of the key up to date; the others run handlers, which
see the document already patched.

Before its template is compiled a component has nothing to bring up to date, and a write to one of
its keys does not count as a scan.

A write is refused when it names a key that the component does not have, and a call when it names
such a method. Making a component fails when its markup, its selector or, under strict options, its
template is wrong.
-/

namespace BoundView

namespace Component

/-- **Why a component refuses.** -/
inductive Error where
  | invalidSelector (error : Selector.Error)
  | rootNotFound (selector : String)
  | undeclaredKey (key : String)
  | unknownMethod (name : String)
  | markup (error : Markup.Error)
  deriving DecidableEq, Repr

/-- The text of an error. -/
def Error.message : Error → String
  | invalidSelector error => "invalid root selector: " ++ error.message
  | rootNotFound selector => "no element matches root selector `" ++ selector ++ "`"
  | undeclaredKey key => "`" ++ key ++ "` is not a declared data key"
  | unknownMethod name => "`" ++ name ++ "` is not a component method"
  | markup error => "template markup: " ++ error.message

end Component

variable {κ σ : Type}

/-- The patch of what a component has rendered for a key, on the world's present document. -/
def World.patched (w : World κ σ) (c : Component κ) (template : Template) (key : String) :
    Patched (Action κ) :=
  patch (w.lookup c.store) c.options.missingKey (w.document c.document)
    (template.affected key c.options.syncInputs)

namespace Run

/-- **Brings what a component has rendered for a key up to date.** -/
def refresh (id : ComponentId) (key : String) : Run κ σ PatchStats := do
  let c := (← get).component id
  match c.template with
  | none => pure ⟨0, 0⟩
  | some template =>
    modify (·.modifyComponent id fun c => { c with scans := c.scans + 1 })
    tell [.updating key]
    let patched := (← get).patched c template key
    modify (·.setDocument c.document patched.document)
    tell patched.traces
    match patched.fault with
    | some f => throw (.document f)
    | none =>
      tell [.updated patched.stats.visited patched.stats.changed]
      pure patched.stats

variable (handle : Handle κ σ)

/-- **One subscriber's turn.** -/
def react (s : SubscriberId) (value : Value) : Run κ σ Unit := do
  match (← get).subscribers[s]?.map Subscriber.reaction with
  | none => pure ()
  | some (.handler run) => handle run (.write value)
  | some (.patch component key) =>
    if (← get).isAlive component then discard (refresh component key)

/-- **Writes a cell.** -/
def set (id : CellId) (value : Value) : Run κ σ Unit := writeCell (react handle) id value

/-- **Writes a key of a store.** -/
def setKey (store : Store) (key : String) (value : Value) :
    Run κ σ (Except Component.Error Unit) := do
  match store.cell? key with
  | none => pure (.error (.undeclaredKey key))
  | some id =>
    set handle id value
    pure (.ok ())

/-- **Writes a key of a component.** -/
def write (id : ComponentId) (key : String) (value : Value) :
    Run κ σ (Except Component.Error Unit) := do
  setKey handle ((← get).component id).store key value

/-- Adds a subscriber to a cell; the answer is its number. -/
def subscribe (id : CellId) (reaction : Reaction κ) : Run κ σ SubscriberId := do
  let s := (← get).subscribers.size
  modify (·.subscribe id reaction)
  pure s

/-- Adds a subscriber to a key of a store. -/
def subscribeKey (store : Store) (key : String) (reaction : Reaction κ) :
    Run κ σ (Except Component.Error SubscriberId) := do
  match store.cell? key with
  | none => pure (.error (.undeclaredKey key))
  | some id => .ok <$> subscribe id reaction

end Run

end BoundView
