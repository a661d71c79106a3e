import BoundView.Component.Mount
import BoundView.Proofs.World.Contract

/-!
# Programs around a component

What methods, hooks and subscribers do is written down as a tree: a handler looks at the world, keeps
notes of its own, and asks for one request after the other, where each request may depend on what it
has seen and on the answers so far. The requests are writes to keys, edits and clicks by a person, and
subscriptions. Running a request runs the handlers that it reaches, which ask for requests in their
turn; the depth of this nesting is bounded only by a number that is given beforehand.

A session makes a component from markup and then runs requests from outside. It keeps a diary of the
worlds that handlers found when they were entered, and of those that the session's own requests left.
-/

namespace BoundView

open BoundView.Dom (Document NodeId)
open BoundView.Interpolation (resolvedText)

/-! ## Behaviors -/

/-- **What a handler may ask for.** -/
inductive Request (κ : Type) where
  | write (key : String) (value : Value)
  | input (node : NodeId) (value : String)
  | click (node : NodeId)
  | subscribe (key : String) (run : κ)
  | unsubscribe (subscriber : SubscriberId)

/-- **What a handler does.** -/
inductive Behavior (κ σ : Type) where
  | done
  | look (next : World κ σ → Behavior κ σ)
  | note (change : σ → σ) (next : Behavior κ σ)
  | ask (request : Request κ) (next : Except Component.Error Nat → Behavior κ σ)

/-- **What handlers do**, by their names and by what they are run for. -/
abbrev Program (κ σ : Type) := κ → Occasion → Behavior κ σ

/-- **The state of a session**: that of the program, the worlds in which handlers were entered, and
those that requests left behind. -/
structure Diary (κ σ : Type) where
  own : σ
  entered : List (World κ σ)
  returned : List (World κ σ)

namespace World

variable {κ σ : Type}

/-- A world without the diary that is kept of it. -/
def seen (w : World κ (Diary κ σ)) : World κ σ where
  documents := w.documents
  events := w.events
  cells := w.cells
  subscribers := w.subscribers
  components := w.components
  traces := w.traces
  host := w.host.own

/-- Writes down that a handler is entered. -/
def noteEntry (w : World κ (Diary κ σ)) : World κ (Diary κ σ) :=
  w.modifyHost fun diary => { diary with entered := diary.entered ++ [w.seen] }

/-- Writes down that a request has returned. -/
def noteReturn (w : World κ (Diary κ σ)) : World κ (Diary κ σ) :=
  w.modifyHost fun diary => { diary with returned := diary.returned ++ [w.seen] }

end World

section

variable {κ σ : Type}

/-- **A request** to a component and its document. Only a subscriber that runs a handler can be let
go. -/
def Request.perform (handle : Handle κ σ) (id : ComponentId) :
    Request κ → Run κ σ (Except Component.Error Nat)
  | .write key value => do
    let result ← Run.write handle id key value
    pure (result.map fun _ => 0)
  | .input node value => do
    let ran ← Run.edit handle ((← get).component id).document node value
    pure (.ok ran)
  | .click node => do
    let ran ← Run.click handle ((← get).component id).document node
    pure (.ok ran)
  | .subscribe key run => do
    Run.subscribeKey ((← get).component id).store key (.handler run)
  | .unsubscribe s => do
    match (← get).reaction? s with
    | some (.handler _) =>
      modify (·.releaseSubscriber s)
      pure (.ok 0)
    | _ => pure (.ok 0)

/-- **Runs a behavior**, given how to run the handlers that its requests reach. -/
def Behavior.run (handle : Handle κ (Diary κ σ)) (id : ComponentId) :
    Behavior κ σ → Run κ (Diary κ σ) Unit
  | .done => pure ()
  | .look next => do run handle id (next (← get).seen)
  | .note change next => do
    modify (·.modifyHost fun diary => { diary with own := change diary.own })
    run handle id next
  | .ask request next => do
    let answer ← request.perform handle id
    run handle id (next answer)

/-- **Runs handlers**, nested up to a given depth. -/
def Program.handle (program : Program κ σ) (id : ComponentId) : Nat → Handle κ (Diary κ σ)
  | 0 => fun _ _ => throw .exhausted
  | depth + 1 => fun run occasion => do
    modify World.noteEntry
    (program run occasion).run (program.handle id depth) id

/-- Runs outermost requests in order. -/
def Request.performAll (handle : Handle κ (Diary κ σ)) (id : ComponentId) :
    List (Request κ) → Run κ (Diary κ σ) Unit
  | [] => pure ()
  | request :: rest => do
    discard (request.perform handle id)
    modify World.noteReturn
    performAll handle id rest

/-- **A session**: a component is made from markup, and then requests come from outside. -/
def Program.session (program : Program κ σ) (depth : Nat) (source : String) (config : Config κ)
    (requests : List (Request κ)) :
    Run κ (Diary κ σ) (Except Component.Error (DocumentId × ComponentId)) := do
  let id := (← get).components.size
  match ← Run.mountMarkup (program.handle id depth) source config with
  | .error e => pure (.error e)
  | .ok made =>
    modify World.noteReturn
    Request.performAll (program.handle id depth) id requests
    pure (.ok made)

/-- **The diary of a session** that begins with nothing, however it ends. -/
def Program.diary (program : Program κ σ) (depth : Nat) (source : String) (config : Config κ)
    (requests : List (Request κ)) (own : σ) : Diary κ σ :=
  match program.session depth source config requests (World.ofHost ⟨own, [], []⟩) with
  | .ok _ w => w.host
  | .error _ w => w.host

/-! ## Settled worlds -/

/-- **Whether a person's edit of a node is under way**: its listeners are still running. -/
def World.IsEdited (w : World κ σ) (node : NodeId) : Prop := ∃ event, w.IsEditing event node

/-- **What the node of a part holds** when a component is consistent with its store: the resolved text
of a text, and the text of the key's value for an element that is bound to a declared key, unless the
live value of the node is exempt. -/
structure Component.Agrees (w : World κ σ) (c : Component κ) (exempt : NodeId → Prop) (p : Part)
    (node : NodeId) : Prop where
  text : ∀ raw handle, p = .text raw handle → (w.document c.document).content node =
    .text (resolvedText (w.lookup c.store) c.options.missingKey raw)
  value : c.options.syncInputs = true → ∀ key value, p.modelKey? = some key →
    w.value? c.store key = some value → ¬ exempt node →
      (w.document c.document).value node = .ok (some value.text)

/-- **A settled world**: every part of every compiled template, but for comments, has a node, and the
node agrees with the store as it is now. -/
def World.Settled (w : World κ σ) (exempt : NodeId → Prop) : Prop :=
  ∀ c ∈ w.components, ∀ t, c.template = some t → ∀ p ∈ t.preorder, p.isRendered = true →
    ∃ node, p.rendered = some node ∧ c.Agrees w exempt p node

end

end BoundView
