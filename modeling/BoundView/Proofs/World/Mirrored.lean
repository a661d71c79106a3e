import BoundView.Component.Mount
import BoundView.Proofs.World.Declaring
import BoundView.Proofs.World.Tables
import BoundView.Proofs.World.Triple

/-!
# The caller's state is carried along

The world carries the caller's state around, and only handlers look at it. Whatever else happens is the same
if this state is replaced by another one that is made from it: a computation **mirrors** itself along a map of
the callers' states, if the handlers do. There is a rule for each way in which computations are put together.
-/

namespace BoundView

open BoundView.Dom (Document NodeId)

variable {κ σ τ α β : Type}

namespace World

/-! ## Another state of the caller's -/

/-- The world with what is made of the caller's state. -/
def mapHost (f : σ → τ) (w : World κ σ) : World κ τ where
  documents := w.documents
  events := w.events
  cells := w.cells
  subscribers := w.subscribers
  components := w.components
  traces := w.traces
  host := f w.host

section

variable (f : σ → τ) (w : World κ σ)

theorem documents_mapHost : (w.mapHost f).documents = w.documents := rfl

theorem cells_mapHost : (w.mapHost f).cells = w.cells := rfl

theorem subscribers_mapHost : (w.mapHost f).subscribers = w.subscribers := rfl

theorem document_mapHost (id : DocumentId) : (w.mapHost f).document id = w.document id := rfl

theorem event_mapHost (id : EventId) : (w.mapHost f).event id = w.event id := rfl

theorem cell_mapHost (id : CellId) : (w.mapHost f).cell id = w.cell id := rfl

theorem component_mapHost (id : ComponentId) : (w.mapHost f).component id = w.component id := rfl

theorem isAlive_mapHost (id : ComponentId) : (w.mapHost f).isAlive id = w.isAlive id := rfl

theorem reaction?_mapHost (s : SubscriberId) : (w.mapHost f).reaction? s = w.reaction? s := rfl

theorem patched_mapHost (c : Component κ) (t : Template) (key : String) :
    (w.mapHost f).patched c t key = w.patched c t key := rfl

theorem renderContext_mapHost (id : ComponentId) :
    (w.mapHost f).renderContext id = w.renderContext id := rfl

theorem compiled_mapHost (id : ComponentId) : (w.mapHost f).compiled id = w.compiled id := rfl

end

variable {f : σ → τ}

theorem mapHost_releaseComponent (w : World κ σ) (id : ComponentId) :
    (w.releaseComponent id).mapHost f = (w.mapHost f).releaseComponent id := by
  unfold releaseComponent
  dsimp only
  rw [component_mapHost]
  split
  · exact (List.foldl_hom (mapHost f) fun _ _ => rfl).symm
  · rfl

theorem declare_mapHost (w : World κ σ) (store : Store) (key : String) (value : Value) :
    (w.mapHost f).declare store key value =
      ((w.declare store key value).1, (w.declare store key value).2.mapHost f) := by
  unfold declare
  cases store.cell? key with
  | none => rfl
  | some cell => rfl

/-- **A store is made** in the same way, whatever the caller's state is. -/
theorem makeStore_mapHost (w : World κ σ) (data : List (String × Value)) :
    (w.mapHost f).makeStore data = ((w.makeStore data).1, (w.makeStore data).2.mapHost f) := by
  induction data using List.reverseRecOn with
  | nil => rfl
  | append_singleton data entry ih =>
    rw [makeStore_concat, makeStore_concat, ih, declare_mapHost]

theorem mapHost_watch (w : World κ σ) (id : ComponentId) (key : String) :
    (w.watch id key).mapHost f = (w.mapHost f).watch id key := by
  unfold watch
  rw [component_mapHost]
  cases (w.component id).store.cell? key with
  | none => rfl
  | some cell => rfl

/-- **A component is added** in the same way. -/
theorem mapHost_addComponent (w : World κ σ) (document : DocumentId) (root : NodeId) (config : Config κ) :
    (w.addComponent document root config).mapHost f = (w.mapHost f).addComponent document root config := by
  unfold addComponent
  dsimp only
  rw [makeStore_mapHost]
  exact (List.foldl_hom (mapHost f) fun w key => (mapHost_watch w _ key).symm).symm

end World

namespace Run

/-! ## Computations side by side -/

/-- An outcome with what is made of the caller's state. -/
def mapHost (f : σ → τ) :
    EStateM.Result Fault (World κ σ) α → EStateM.Result Fault (World κ τ) α
  | .ok a w => .ok a (w.mapHost f)
  | .error e w => .error e (w.mapHost f)

/-- **A computation mirrors another one**: what it does is the same, but for what is made of the caller's
state. -/
def Mirrors (f : σ → τ) (m : Run κ σ α) (n : Run κ τ α) : Prop :=
  ∀ w, n (w.mapHost f) = mapHost f (m w)

namespace Mirrors

variable {f : σ → τ} {m : Run κ σ α} {n : Run κ τ α}

theorem left (h : Mirrors f m n) (w : World κ σ) :
    (Run.left m w).mapHost f = Run.left n (w.mapHost f) := by
  unfold Run.left
  rw [h w]
  cases m w with
  | ok _ _ => rfl
  | error _ _ => rfl

theorem pure (a : α) : Mirrors f (Pure.pure a : Run κ σ α) (Pure.pure a : Run κ τ α) := fun _ => rfl

theorem throw (e : Fault) :
    Mirrors f (MonadExcept.throw e : Run κ σ α) (MonadExcept.throw e : Run κ τ α) := fun _ => rfl

theorem bind {g : α → Run κ σ β} {g' : α → Run κ τ β} (hm : Mirrors f m n)
    (hg : ∀ a, Mirrors f (g a) (g' a)) : Mirrors f (m >>= g) (n >>= g') := by
  intro w
  show EStateM.bind n g' (w.mapHost f) = mapHost f (EStateM.bind m g w)
  unfold EStateM.bind
  rw [hm w]
  cases m w with
  | ok a w' => exact hg a w'
  | error e w' => rfl

theorem map (hm : Mirrors f m n) (g : α → β) : Mirrors f (g <$> m) (g <$> n) := by
  intro w
  show EStateM.map g n (w.mapHost f) = mapHost f (EStateM.map g m w)
  unfold EStateM.map
  rw [hm w]
  cases m w with
  | ok a w' => rfl
  | error e w' => rfl

theorem discard (hm : Mirrors f m n) : Mirrors f (Functor.discard m) (Functor.discard n) :=
  hm.map fun _ => ()

theorem modify {g : World κ σ → World κ σ} {g' : World κ τ → World κ τ}
    (hg : ∀ w, (g w).mapHost f = g' (w.mapHost f)) :
    Mirrors f (modify g : Run κ σ Unit) (modify g' : Run κ τ Unit) :=
  fun w => congrArg (EStateM.Result.ok ()) (hg w).symm

/-- Reading the world. -/
theorem get_bind {g : World κ σ → Run κ σ β} {g' : World κ τ → Run κ τ β}
    (hg : ∀ w, Mirrors f (g w) (g' (w.mapHost f))) :
    Mirrors f ((MonadState.get : Run κ σ (World κ σ)) >>= g)
      ((MonadState.get : Run κ τ (World κ τ)) >>= g') :=
  fun w => hg w w

theorem tryCatch {handler : Fault → Run κ σ α} {handler' : Fault → Run κ τ α} (hm : Mirrors f m n)
    (hhandler : ∀ e, Mirrors f (handler e) (handler' e)) :
    Mirrors f (MonadExcept.tryCatch m handler) (MonadExcept.tryCatch n handler') := by
  intro w
  show EStateM.tryCatch n handler' (w.mapHost f) = mapHost f (EStateM.tryCatch m handler w)
  unfold EStateM.tryCatch
  rw [hm w]
  cases m w with
  | ok a w' => rfl
  | error e w' => exact hhandler e w'

/-- **Activities on behalf of a component.** -/
theorem holding (id : ComponentId) (hbody : Mirrors f m n) :
    Mirrors f (Run.holding id m) (Run.holding id n) := by
  have hrelease : Mirrors f (MonadState.modifyGet fun w => ((), w.releaseComponent id) : Run κ σ Unit)
      (MonadState.modifyGet fun w => ((), w.releaseComponent id) : Run κ τ Unit) :=
    modify fun w => w.mapHost_releaseComponent id
  refine bind (modify fun _ => rfl) fun _ => tryCatch (bind hbody fun a => ?_) fun e => ?_
  · exact bind hrelease fun _ => pure a
  · exact bind hrelease fun _ => throw e

end Mirrors

end Run

end BoundView
