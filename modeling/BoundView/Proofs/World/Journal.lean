import BoundView.Component.Write
import BoundView.Proofs.World.Ledger

/-!
# Programs on cells and their journals

A program makes cells, writes them, subscribes callbacks to them and drops the guards that it was given,
and its callbacks do the same, nested in one another to any depth. What a callback does is written down
as a tree: it looks at cells, keeps a state of its own, and asks for one request after the other, where
each may depend on what it has seen so far.

A journal is kept of all that: of every request, of what cells answer when they are asked, and of the
turns of callbacks.
-/

namespace BoundView.Delivery

variable {κ σ : Type}

/-! ## Programs -/

/-- **A callback**: what it runs, with its own number and the cell that it hears. -/
structure Callback (κ : Type) where
  run : κ
  subscriber : SubscriberId
  cell : CellId

/-- **What may be asked of cells.** -/
inductive Request (κ : Type) where
  | make (value : Value)
  | set (cell : CellId) (value : Value)
  | subscribe (cell : CellId) (run : κ)
  /-- Drops the guard of a subscriber. -/
  | drop (s : SubscriberId)

/-- **What a callback does**: it looks at cells, keeps a state of its own, and asks for one request after
the other. -/
inductive Behavior (κ σ : Type) where
  | done
  | consult (next : σ → Behavior κ σ)
  | note (change : σ → σ) (next : Behavior κ σ)
  | look (cell : CellId) (next : Option Sight → Behavior κ σ)
  | ask (request : Request κ) (next : Nat → Behavior κ σ)

/-- **What callbacks do**, by what they run and by the value that they are given. -/
abbrev Program (κ σ : Type) := κ → Value → Behavior κ σ

/-- **The state of a run**: that of the program, the guards that are alive, and the journal. -/
structure Journal (σ : Type) where
  own : σ
  guards : List SubscriberId
  marks : List Mark

/-! ## Requests -/

/-- What a cell answers when it is asked. -/
def sight (w : World κ σ) (cell : CellId) : Sight :=
  ⟨(w.cell cell).value, (w.cell cell).version, w.liveCount cell⟩

/-- Makes a mark. -/
def mark (m : Mark) : Run κ (Journal σ) Unit :=
  modify (·.modifyHost fun j => { j with marks := j.marks ++ [m] })

/-- Hands out guards, or takes them back. -/
def modifyGuards (f : List SubscriberId → List SubscriberId) : Run κ (Journal σ) Unit :=
  modify (·.modifyHost fun j => { j with guards := f j.guards })

/-- Makes a cell. -/
def make (value : Value) : Run (Callback κ) (Journal σ) CellId := do
  let cell := (← get).cells.size
  modify (·.addCell value)
  mark (.made cell value)
  pure cell

/-- Writes a cell. -/
def write (handle : Handle (Callback κ) (Journal σ)) (cell : CellId) (value : Value) :
    Run (Callback κ) (Journal σ) Unit := do
  mark (.called cell value)
  Run.set handle cell value
  mark (.returned cell)

/-- Subscribes to a cell; the guard is handed out. -/
def subscribe (cell : CellId) (run : κ) : Run (Callback κ) (Journal σ) SubscriberId := do
  let callback : Callback κ := ⟨run, (← get).subscribers.size, cell⟩
  let s ← Run.subscribe cell (.handler callback)
  modifyGuards (· ++ [s])
  mark (.subscribed cell s)
  pure s

/-- Drops a guard. -/
def drop (s : SubscriberId) : Run (Callback κ) (Journal σ) Unit := do
  modify (·.releaseSubscriber s)
  modifyGuards (·.erase s)
  mark (.dropped s)

/-- **A request.** The answer is the number of what was made. A cell that is not there, and a guard that
is not alive, cannot be asked for anything. -/
def Request.perform (handle : Handle (Callback κ) (Journal σ)) :
    Request κ → Run (Callback κ) (Journal σ) Nat
  | .make value => Delivery.make value
  | .set cell value => do
    if cell < (← get).cells.size then write handle cell value
    pure 0
  | .subscribe cell run => do
    if cell < (← get).cells.size then Delivery.subscribe cell run else pure 0
  | .drop s => do
    if s ∈ (← get).host.guards then Delivery.drop s
    pure 0

/-! ## Runs -/

/-- **Runs a behavior**, given how to run the callbacks that its writes reach. -/
def Behavior.run (handle : Handle (Callback κ) (Journal σ)) :
    Behavior κ σ → Run (Callback κ) (Journal σ) Unit
  | .done => pure ()
  | .consult next => do run handle (next (← get).host.own)
  | .note change next => do
    modify (·.modifyHost fun j => { j with own := change j.own })
    run handle next
  | .look cell next => do
    let w ← get
    if cell < w.cells.size then
      mark (.looked cell (sight w cell))
      run handle (next (some (sight w cell)))
    else run handle (next none)
  | .ask request next => do
    let answer ← request.perform handle
    run handle (next answer)

/-- **Runs callbacks**, nested up to a given depth. -/
def Program.handle (program : Program κ σ) : Nat → Handle (Callback κ) (Journal σ)
  | 0 => fun _ _ => throw .exhausted
  | depth + 1 => fun callback occasion =>
    match occasion with
    | .write value => do
      mark (.entered callback.subscriber value (sight (← get) callback.cell))
      (program callback.run value).run (program.handle depth)
      mark (.left callback.subscriber)
    | _ => pure ()

/-- **A run of a program** that begins with nothing. -/
def Program.start (program : Program κ σ) (depth : Nat) (main : Behavior κ σ) (own : σ) :
    EStateM.Result Fault (World (Callback κ) (Journal σ)) Unit :=
  main.run (program.handle depth) (World.ofHost ⟨own, [], []⟩)

/-- **The journal of a run**, however it ends. -/
def Program.marks (program : Program κ σ) (depth : Nat) (main : Behavior κ σ) (own : σ) : List Mark :=
  match program.start depth main own with
  | .ok _ w => w.host.marks
  | .error _ w => w.host.marks

end BoundView.Delivery
