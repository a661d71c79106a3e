import BoundView.Component.Dispatch
import BoundView.Component.Mount
import BoundView.Proofs.Tree.Growing
import BoundView.Proofs.World.Declaring

/-!
# Durable properties

User code may change almost everything, but every change of the world is one of a few edits: documents
only grow, events are added, stopped and sent on their way, cells and subscribers come and change, and of
the components there are only the counts and the watchers change once they are rendered. A property of the
world is **durable** when it survives these edits. What a property says of some events or components may
not survive everything; the **latitude** tells which events may be dispatched and which components may
be rendered meanwhile, and whether what user code renders has to be proper.

Main statements: the laws of `World.Durable`.
-/

namespace BoundView

open BoundView.Dom (Document NodeId)
open BoundView.Dom.Document (Grows)

variable {κ σ : Type}

/-- **What stays of a component**: all but its counts and its watchers. -/
def Component.charter (c : Component κ) : Component κ :=
  { c with scans := 0, watchers := [], holders := 0 }

/-- **How much is left to user code.** -/
structure Latitude where
  /-- The events that may be dispatched. -/
  event : EventId → Prop
  /-- The components that may be rendered. -/
  component : ComponentId → Prop
  /-- Nothing is rendered under a text or a comment. -/
  proper : Prop

namespace World

/-- Making a store takes cells. -/
theorem exists_makeStore (w : World κ σ) (data : List (String × Value)) :
    ∃ cells, (w.makeStore data).2 = { w with cells } := by
  induction data using List.reverseRecOn with
  | nil => exact ⟨w.cells, rfl⟩
  | append_singleton data entry ih =>
    obtain ⟨key, value⟩ := entry
    obtain ⟨cells, hmade⟩ := ih
    rw [makeStore_concat, hmade]
    unfold declare
    cases (w.makeStore data).1.cell? key with
    | some cell => exact ⟨_, rfl⟩
    | none => exact ⟨_, rfl⟩

/-- **A durable property** of worlds. -/
structure Durable (I : World κ σ → Prop) (l : Latitude) : Prop where
  withTraces : ∀ {w : World κ σ} (traces : Array Trace), I w → I { w with traces }
  withCells : ∀ {w : World κ σ} (cells : Array Cell), I w → I { w with cells }
  withSubscribers : ∀ {w : World κ σ} (subscribers : Array (Subscriber κ)), I w →
    I { w with subscribers }
  /-- A new event may be dispatched. -/
  addEvent : ∀ {w : World κ σ} (e : Event), I w → I (w.addEvent e) ∧ l.event w.events.size
  stop : ∀ {w : World κ σ} (event : EventId), I w →
    I (w.modifyEvent event fun e => { e with stopped := true })
  /-- An event is at another node, or at none any more. -/
  pass : ∀ {w : World κ σ} {event : EventId} (node : Option NodeId), l.event event → I w →
    I (w.modifyEvent event fun e => { e with current := node })
  pushDocument : ∀ {w : World κ σ} {d : Document (Action κ)}, d.Coherent → I w →
    I { w with documents := w.documents.push d }
  setDocument : ∀ {w : World κ σ} {id : DocumentId} {d : Document (Action κ)}, I w →
    Grows (w.document id) d → (l.proper → (w.document id).Coherent → d.Coherent) →
    I (w.setDocument id d)
  /-- A new component may be rendered. -/
  pushComponent : ∀ {w : World κ σ} (c : Component κ), I w →
    I { w with components := w.components.push c } ∧ l.component w.components.size
  modifyComponent : ∀ {w : World κ σ} (id : ComponentId) {f : Component κ → Component κ},
    (∀ c, (f c).charter = c.charter) → I w → I (w.modifyComponent id f)
  render : ∀ {w : World κ σ} {id : ComponentId} (f : Component κ → Component κ), l.component id →
    I w → I (w.modifyComponent id f)

namespace Durable

variable {I : World κ σ → Prop} {l : Latitude} {w : World κ σ} (hI : Durable I l)

include hI

theorem tell (h : I w) (traces : List Trace) : I (w.tell traces) := hI.withTraces _ h

/-! ## Cells and subscribers -/

theorem addCell (h : I w) (value : Value) : I (w.addCell value) := hI.withCells _ h

theorem storeValue (h : I w) (cell : CellId) (value : Value) : I (w.storeValue cell value) :=
  hI.withCells _ h

theorem subscribe (h : I w) (cell : CellId) (reaction : Reaction κ) : I (w.subscribe cell reaction) :=
  hI.withCells _ (hI.withSubscribers _ h)

theorem releaseSubscriber (h : I w) (s : SubscriberId) : I (w.releaseSubscriber s) :=
  hI.withSubscribers _ h

theorem holdSubscribers (h : I w) (ss : List SubscriberId) : I (ss.foldl World.holdSubscriber w) := by
  obtain ⟨subscribers, hfold, _⟩ := exists_foldl_holdSubscriber ss w
  rw [hfold]
  exact hI.withSubscribers subscribers h

theorem releaseSubscribers (h : I w) (ss : List SubscriberId) :
    I (ss.foldl World.releaseSubscriber w) := by
  obtain ⟨subscribers, hfold⟩ := exists_foldl_releaseSubscriber ss w
  rw [hfold]
  exact hI.withSubscribers subscribers h

theorem makeStore (h : I w) (data : List (String × Value)) : I (w.makeStore data).2 := by
  obtain ⟨cells, hmade⟩ := w.exists_makeStore data
  rw [hmade]
  exact hI.withCells cells h

/-! ## Components -/

theorem holdComponent (h : I w) (id : ComponentId) : I (w.holdComponent id) :=
  hI.modifyComponent id (fun _ => rfl) h

theorem releaseComponent (h : I w) (id : ComponentId) : I (w.releaseComponent id) := by
  unfold World.releaseComponent
  dsimp only
  have hreleased := hI.modifyComponent id (f := fun c => { c with holders := c.holders - 1 })
    (fun _ => rfl) h
  split
  · exact hI.releaseSubscribers hreleased _
  · exact hreleased

theorem watch (h : I w) (id : ComponentId) (key : String) : I (w.watch id key) := by
  unfold World.watch
  cases (w.component id).store.cell? key with
  | none => exact h
  | some cell => exact hI.modifyComponent id (fun _ => rfl) (hI.subscribe h cell (.patch id key))

theorem watchAll (h : I w) (id : ComponentId) (keys : List String) :
    I (keys.foldl (fun w key => w.watch id key) w) := by
  induction keys generalizing w with
  | nil => exact h
  | cons key keys ih => exact ih (hI.watch h id key)

/-- **Adding a component**, which may be rendered. -/
theorem addComponent (h : I w) (document : DocumentId) (root : NodeId) (config : Config κ) :
    I (w.addComponent document root config) ∧ l.component w.components.size := by
  obtain ⟨hadded, hnew⟩ := hI.pushComponent (w.added document root config) (hI.makeStore h config.data)
  rw [(makeStore_spec w config.data).components] at hnew
  have hwatched : I (w.withAdded document root config) := hadded
  exact ⟨hI.watchAll hwatched _ _, hnew⟩

end Durable

end World

end BoundView
