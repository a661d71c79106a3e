import BoundView.World.Basic

/-!
# Cells and stores

A write stores the value, counts itself and drops dead subscribers, all before any subscriber runs.
Then it notifies the subscribers that are alive at this moment, oldest first, each with the value
of this write. A subscriber that is being notified is held until its turn is over, so one that
loses its other holders meanwhile still gets its turn. Writes inside a notification start
notifications of their own.

A store has a fixed set of keys, each with a cell of its own. As a lookup it knows exactly its keys
and answers with the texts of their values.
-/

namespace BoundView

open BoundView.Interpolation (Lookup)

variable {κ σ : Type}

/-! ## Cells -/

namespace World

variable (w : World κ σ)

/-- Adds a cell; its number is the former count of cells. -/
def addCell (value : Value) : World κ σ := { w with cells := w.cells.push ⟨value, 0, []⟩ }

/-- **Stores a value** in a cell, without notifying anyone. -/
def storeValue (id : CellId) (value : Value) : World κ σ :=
  w.modifyCell id fun c => ⟨value, c.version + 1, c.subscribers.filter w.isLive⟩

/-- **Adds a subscriber** to a cell, held once; its number is the former count of subscribers. -/
def subscribe (id : CellId) (reaction : Reaction κ) : World κ σ :=
  { w with subscribers := w.subscribers.push ⟨reaction, 1⟩ }.modifyCell id fun c =>
    { c with subscribers := c.subscribers ++ [w.subscribers.size] }

/-- The number of a cell's subscribers that are alive. -/
def liveCount (id : CellId) : Nat := (w.cell id).subscribers.countP w.isLive

end World

namespace Run

/-- Notifies held subscribers in order and lets go of each after its turn. A fault lets go of all
that are left. -/
def notify (react : SubscriberId → Run κ σ Unit) : List SubscriberId → Run κ σ Unit
  | [] => pure ()
  | s :: rest => do
    try react s
    catch f =>
      modify fun w => (s :: rest).foldl World.releaseSubscriber w
      throw f
    modify (·.releaseSubscriber s)
    notify react rest

/-- **Writes a cell** and notifies. -/
def writeCell (react : SubscriberId → Value → Run κ σ Unit) (id : CellId) (value : Value) :
    Run κ σ Unit := do
  modify (·.storeValue id value)
  let round := ((← get).cell id).subscribers
  modify fun w => round.foldl World.holdSubscriber w
  notify (react · value) round

end Run

/-! ## Stores -/

namespace Store

variable (store : Store)

/-- The keys, in the order of their declaration. -/
def keys : List String := store.entries.map Prod.fst

/-- The cell of a key. -/
def cell? (key : String) : Option CellId := store.entries.lookup key

/-- Whether a key is declared. -/
def contains (key : String) : Bool := (store.cell? key).isSome

end Store

namespace World

variable (w : World κ σ)

/-- The value of a key. -/
def value? (store : Store) (key : String) : Option Value :=
  (store.cell? key).map fun id => (w.cell id).value

/-- **A store as a lookup.** -/
def lookup (store : Store) : Lookup := fun key => (w.value? store key).map Value.text

/-- Declares a key, or writes it if it is declared already. -/
def declare (store : Store) (key : String) (value : Value) : Store × World κ σ :=
  match store.cell? key with
  | some id => (store, w.storeValue id value)
  | none => (⟨store.entries ++ [(key, w.cells.size)]⟩, w.addCell value)

/-- **A new store.** A repeated key keeps its first place; its later values count as writes. -/
def makeStore (data : List (String × Value)) : Store × World κ σ :=
  data.foldl (fun (store, w) (key, value) => w.declare store key value) (⟨[]⟩, w)

end World

end BoundView
