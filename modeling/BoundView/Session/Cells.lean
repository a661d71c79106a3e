import BoundView.Session.Evaluate

/-!
# Actions on cells and stores

Cells and stores that a session makes for itself, without a component.
-/

namespace BoundView.Session

open BoundView.Script (CellAction)

/-- What is known of a cell. -/
def cellInfo (w : SessionWorld) (id : CellId) : CellInfo :=
  let c := w.cell id
  ⟨c.value, c.version, w.liveCount id, c.subscribers.length⟩

/-- A value after an update: an integer grows, a text is continued. -/
def updated (v : Value) (add : Int64) (append : String) : Value :=
  match v with
  | .int n => .int (n + add)
  | .str s => .str (s ++ append)
  | v => v

/-- Subscribes a script to a cell. -/
def subscribeScript (id : CellId) (name : String) (component : Option String) (script : Script) :
    SessionRun Unit := do
  let s ← Run.subscribe id (.handler (.subscriber name component script))
  bindSubscription name s

/-- Subscribes a script to a key of a store. -/
def subscribeKeyScript (store : Store) (key name : String) (component : Option String)
    (script : Script) : Act Reply := do
  let reaction : Reaction Callback := .handler (.subscriber name component script)
  let s ← ofComponent (Run.subscribeKey store key reaction)
  act (bindSubscription name s)
  pure .unit

/-- **One action on a cell or a store.** -/
def performCell (handle : Handle Callback State) (context : Context) (action : CellAction) :
    Act Reply := do
  match action with
  | .make name value => do
    let value ← valueOf context value
    let id := (← get).cells.size
    modify (·.addCell value)
    act (modifyState fun s => { s with cells := s.cells.bind name id })
    pure .unit
  | .share name other => do
    let id ← find State.cells name
    act (modifyState fun s => { s with cells := s.cells.bind other id })
    pure .unit
  | .set name value => do
    let id ← find State.cells name
    let value ← valueOf context value
    act (Run.set handle id value)
    pure .unit
  | .update name add append => do
    let id ← find State.cells name
    act (Run.set handle id (updated ((← get).cell id).value add append))
    pure .unit
  | .info name => do
    let id ← find State.cells name
    pure (.cell (cellInfo (← get) id))
  | .makeStore name entries => do
    let (store, w) := (← get).makeStore entries
    set w
    act (modifyState fun s => { s with stores := s.stores.bind name store })
    pure .unit
  | .getKey name key => do
    let store ← find State.stores name
    pure (.value? ((← get).value? store key))
  | .setKey name key value => do
    let store ← find State.stores name
    let value ← valueOf context value
    ofComponent (Run.setKey handle store key value)
    pure .unit
  | .storeInfo name => do
    let store ← find State.stores name
    let w ← get
    pure (.store (store.entries.map fun (key, id) => (key, cellInfo w id)))
  | .hasKey name key => do
    let store ← find State.stores name
    pure (.bools (store.contains key) (store.cell? key).isSome)

end BoundView.Session
