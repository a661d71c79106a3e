import BoundView.Proofs.Component.Dispatching
import BoundView.Proofs.World.Adding

/-!
# Computations keep the world orderly

A computation **upholds** the order of a world when it leaves the world orderly, whether it returns or
fails, and leaves as many turns to come as it found. If running a handler upholds the order, then so
does every computation that may run handlers: writes with their rounds, events on their way along a
path, and the making of components. The depth to which these are nested in one another plays no part.

Main statements: `upholds_set`, `upholds_dispatch`, `mount_upholds`, `upholds_mountMarkup`.
-/

namespace BoundView.Run

open BoundView.Dom (Document NodeId)
open BoundView.Dom.Document (Grows)
open BoundView.World (Orderly awaiting)

variable {κ σ α β : Type} {note : σ → Prop}

/-- **A computation that keeps the world orderly**, whatever waits for turns. -/
def Upholds (note : σ → Prop) (m : Run κ σ α) : Prop :=
  ∀ pending, Triple (Orderly note pending []) m (fun _ => Orderly note pending [])
    (Orderly note pending [])

namespace Upholds

theorem pure (a : α) : Upholds note (Pure.pure a : Run κ σ α) := fun _ => Triple.pure fun _ h => h

theorem throw (f : Fault) : Upholds note (MonadExcept.throw f : Run κ σ α) :=
  fun _ => Triple.throw fun _ h => h

theorem bind {m : Run κ σ α} {f : α → Run κ σ β} (hm : Upholds note m)
    (hf : ∀ a, Upholds note (f a)) : Upholds note (m >>= f) :=
  fun pending => Triple.bind (hm pending) fun a => hf a pending

theorem discard {m : Run κ σ α} (hm : Upholds note m) : Upholds note (Functor.discard m) :=
  fun pending => (hm pending).discard fun _ _ h => h

theorem modify {f : World κ σ → World κ σ}
    (h : ∀ pending w, Orderly note pending [] w → Orderly note pending [] (f w)) :
    Upholds note (modify f : Run κ σ Unit) :=
  fun pending => Triple.modify (h pending)

/-- Reading the world: the rest upholds the order, whatever was read. -/
theorem get_bind {f : World κ σ → Run κ σ β} (h : ∀ w, Upholds note (f w)) :
    Upholds note ((MonadState.get : Run κ σ (World κ σ)) >>= f) :=
  fun pending => Triple.get_bind fun w hw => (h w pending).at_world hw

end Upholds

/-! ## Documents -/

theorem upholds_tell (traces : List Trace) : Upholds note (tell traces : Run κ σ Unit) :=
  .modify fun _ _ h => h.tell traces

theorem upholds_readDocument (id : DocumentId)
    (read : Document (Action κ) → Except Dom.Fault α) :
    Upholds note (readDocument id read : Run κ σ α) := by
  refine .get_bind fun w => ?_
  unfold ofDocument
  cases read (w.document id) with
  | ok a => exact .pure a
  | error f => exact .throw _

/-- An edit under which documents grow. -/
theorem upholds_editDocument (id : DocumentId)
    {edit : Document (Action κ) → Except Dom.Fault (α × Document (Action κ))}
    (h : ∀ d r, edit d = .ok r → Grows d r.2) :
    Upholds note (editDocument id edit : Run κ σ α) := by
  refine fun pending => editDocument_spec fun w hw => ?_
  cases hedit : edit (w.document id) with
  | ok r => exact hw.setDocument (h _ r hedit)
  | error f => exact hw

/-! ## Writes -/

theorem upholds_refresh (id : ComponentId) (key : String) :
    Upholds note (refresh id key : Run κ σ PatchStats) := by
  refine .get_bind fun w => ?_
  dsimp only
  cases (w.component id).template with
  | none => exact .pure _
  | some t =>
    refine .bind (.modify fun _ w h => ?_) fun _ => ?_
    · exact h.modifyComponent rfl rfl (fun hpos => hpos) (h.watchers id) (h.housed id) (h.apart id)
    refine .bind (upholds_tell _) fun _ => ?_
    refine fun pending => Triple.get_bind fun w' hw' => ?_
    have hgrows : Grows (w'.document (w.component id).document)
        (w'.patched (w.component id) t key).document := Template.grows_patch _ _ _ _
    refine Triple.bind (Q := fun _ => Orderly note pending []) (Triple.modify ?_) fun _ => ?_
    · rintro _ rfl
      exact hw'.setDocument hgrows
    refine Triple.bind (upholds_tell _ pending) fun _ => ?_
    cases (w'.patched (w.component id) t key).fault with
    | some f => exact Upholds.throw _ pending
    | none => exact Triple.bind (upholds_tell _ pending) fun _ => Upholds.pure _ pending

section

variable {handle : Handle κ σ} (hhandle : ∀ run occasion, Upholds note (handle run occasion))

include hhandle

/-- **Any subscriber's turn.** -/
theorem upholds_react (s : SubscriberId) (value : Value) :
    Upholds note (react handle s value) := by
  refine .get_bind fun w => ?_
  cases (w.subscribers[s]?).map Subscriber.reaction with
  | none => exact .pure _
  | some reaction =>
    cases reaction with
    | handler run => exact hhandle run (.write value)
    | patch id key =>
      refine .get_bind fun w' => ?_
      split
      · exact (upholds_refresh id key).discard
      · exact .pure _

omit hhandle in
/-- **A round** gives everybody a turn, and nobody waits for one any more. -/
theorem notify_upholds {turn : SubscriberId → Run κ σ Unit} (hturn : ∀ s, Upholds note (turn s))
    (pending : SubscriberId → Nat) (round : List SubscriberId) :
    Triple (Orderly note (awaiting pending round) []) (notify turn round)
      (fun _ => Orderly note pending []) (Orderly note pending []) := by
  induction round with
  | nil => exact Triple.pure fun _ h => h
  | cons s round ih =>
    unfold notify
    refine Triple.bind (Triple.tryCatch (hturn s _) fun f => ?_) fun _ => ?_
    · exact Triple.bind (Q := fun _ => Orderly note pending [])
        (Triple.modify fun _ h => h.releaseRound) fun _ => Triple.throw fun _ h => h
    · exact Triple.bind (Q := fun _ => Orderly note (awaiting pending round) [])
        (Triple.modify fun _ h => h.releaseTurn) fun _ => ih

/-- **A write** with all that follows it. -/
theorem upholds_set (id : CellId) (value : Value) : Upholds note (set handle id value) := by
  refine .bind (.modify fun _ _ h => h.storeValue id value) fun _ => fun pending => ?_
  refine Triple.get_bind fun w hw => ?_
  dsimp only
  refine Triple.bind (Q := fun _ => Orderly note (awaiting pending (w.cell id).subscribers) [])
    (Triple.modify ?_) fun _ =>
      notify_upholds (fun s => upholds_react hhandle s value) pending _
  rintro _ rfl
  exact hw.holdRound (hw.there id)

theorem upholds_write (id : ComponentId) (key : String) (value : Value) :
    Upholds note (write handle id key value) := by
  refine .get_bind fun w => ?_
  unfold setKey
  cases (w.component id).store.cell? key with
  | none => exact .pure _
  | some cell => exact .bind (upholds_set hhandle cell value) fun _ => .pure _

omit hhandle in
/-- A new subscriber that runs a handler. -/
theorem subscribe_upholds (pending : SubscriberId → Nat) (cell : CellId) (run : κ) :
    Triple (fun w => Orderly note pending [] w ∧ cell < w.cells.size)
      (subscribe cell (.handler run) : Run κ σ SubscriberId) (fun _ => Orderly note pending [])
      (Orderly note pending []) := by
  refine Triple.get_bind fun w hw => ?_
  refine Triple.bind (Q := fun _ => Orderly note pending []) (Triple.modify ?_) fun _ =>
    Upholds.pure _ pending
  rintro _ rfl
  exact hw.1.subscribe hw.2 (fun _ _ he => by cases he) fun _ _ _ => Iff.rfl

omit hhandle in
theorem upholds_subscribeKey (id : ComponentId) (key : String) (run : κ) :
    Upholds note (do subscribeKey ((← get).component id).store key (.handler run)) := by
  refine fun pending => Triple.get_bind fun w hw => ?_
  unfold subscribeKey
  cases hcell : (w.component id).store.cell? key with
  | none => exact (Upholds.pure _ pending).at_world hw
  | some cell =>
    exact ((subscribe_upholds pending cell run).map fun _ _ h => h).at_world
      ⟨hw, hw.cell_lt id key cell hcell⟩

/-! ## Listeners -/

omit hhandle in
/-- An activity on behalf of a living component. -/
theorem holding_upholds (id : ComponentId) {body : Run κ σ α} {pending : SubscriberId → Nat}
    (hbody : Triple (fun w => Orderly note pending [] w ∧ w.isAlive id = true) body
      (fun _ => Orderly note pending []) (Orderly note pending [])) :
    Triple (fun w => Orderly note pending [] w ∧ w.isAlive id = true) (holding id body)
      (fun _ => Orderly note pending []) (Orderly note pending []) := by
  refine Triple.holding (fun w hw => ⟨hw.1.holdComponent hw.2, ?_⟩) hbody
    (fun _ _ h => h.releaseComponent id) fun _ h => h.releaseComponent id
  unfold World.isAlive World.holdComponent
  rw [World.component_modifyComponent_self (World.lt_of_isAlive hw.2)]
  exact decide_eq_true (Nat.succ_pos _)

theorem call_upholds (pending : SubscriberId → Nat) (id : ComponentId) (name : String)
    (event : EventId) :
    Triple (fun w => Orderly note pending [] w ∧ w.isAlive id = true) (call handle id name event)
      (fun _ => Orderly note pending []) (Orderly note pending []) := by
  refine Triple.get_bind fun w hw => ?_
  cases (w.component id).method? name with
  | none => exact (Upholds.pure _ pending).at_world hw.1
  | some run =>
    have hheld := holding_upholds id ((hhandle run (.method id event) pending).pre fun _ h => h.1)
    exact Triple.bind (hheld.at_world hw) fun _ => Upholds.pure _ pending

/-- **One listener's turn.** -/
theorem upholds_runAction (event : EventId) (action : Action κ) :
    Upholds note (runAction handle event action) := by
  cases action with
  | handler run => exact hhandle run (.event event)
  | method id name =>
    refine fun pending => Triple.get_bind fun w hw => ?_
    by_cases halive : w.isAlive id = true
    · rw [if_pos halive]
      refine (holding_upholds id ?_).at_world ⟨hw, halive⟩
      unfold runMethod
      refine Triple.bind (call_upholds hhandle pending id name event) fun result => ?_
      cases result with
      | ok _ => exact Upholds.pure _ pending
      | error _ => exact Upholds.get_bind (fun _ => upholds_tell _) pending
    · rw [if_neg halive]
      exact (Upholds.pure _ pending).at_world hw
  | model id key =>
    refine fun pending => Triple.get_bind fun w hw => ?_
    by_cases halive : w.isAlive id = true
    · rw [if_pos halive]
      refine (holding_upholds id (Triple.pre ?_ fun _ h => h.1)).at_world ⟨hw, halive⟩
      unfold runModel
      refine Upholds.get_bind (fun w => ?_) pending
      refine .bind (upholds_readDocument _ _) fun value => ?_
      refine .bind (upholds_write hhandle id key _) fun result => ?_
      cases result with
      | ok _ => exact .pure _
      | error _ => exact upholds_tell _
    · rw [if_neg halive]
      exact (Upholds.pure _ pending).at_world hw

theorem upholds_runActions (event : EventId) (actions : List (Action κ)) :
    Upholds note (runActions handle event actions) := by
  induction actions with
  | nil => exact .pure _
  | cons action rest ih => exact .bind (upholds_runAction hhandle event action) fun _ => ih

/-! ## Events -/

/-- **A walk along a path.** -/
theorem upholds_visit (document : DocumentId) (event : EventId) (path : List NodeId) :
    Upholds note (visit handle document event path) := by
  induction path with
  | nil => exact .pure _
  | cons node path ih =>
    unfold visit
    refine .bind (upholds_readDocument _ _).discard fun _ => .get_bind fun w => ?_
    refine .bind (.modify fun _ _ h => h.modifyEvent event _) fun _ => ?_
    refine .bind (upholds_runActions hhandle event _) fun _ => .get_bind fun w' => ?_
    split
    · exact .pure _
    · exact .bind ih fun _ => .pure _

/-- **Dispatching an event.** -/
theorem upholds_dispatch (document : DocumentId) (event : EventId) :
    Upholds note (dispatch handle document event) := by
  refine .get_bind fun w => .bind (upholds_tell _) fun _ => .get_bind fun w' => ?_
  refine .bind (upholds_visit hhandle document _ _) fun _ => ?_
  exact .bind (.modify fun _ _ h => h.modifyEvent _ _) fun _ => .pure _

theorem upholds_fire (document : DocumentId) (e : Event) :
    Upholds note (fire handle document e) :=
  .get_bind fun _ => .bind (.modify fun _ _ h => h.addEvent e) fun _ =>
    .bind (upholds_dispatch hhandle document _) fun _ => .pure _

theorem upholds_click (document : DocumentId) (node : NodeId) :
    Upholds note (click handle document node) :=
  .bind (upholds_fire hhandle document _) fun _ => .pure _

theorem upholds_edit (document : DocumentId) (node : NodeId) (value : String) :
    Upholds note (edit handle document node value) := by
  refine .bind (upholds_editDocument document fun d r hr => ?_).discard fun _ =>
    .bind (upholds_fire hhandle document _) fun _ => .pure _
  exact .setValue hr

/-! ## Making a component -/

theorem upholds_runHook (id : ComponentId) (hook : Option κ) :
    Upholds note (runHook handle id hook) := by
  cases hook with
  | none => exact .pure _
  | some run => exact hhandle run (.hook id)

omit hhandle in
/-- **Rendering a compiled template**, also where it fails half-way. -/
theorem upholds_renderComponent (id : ComponentId) {t : Template} (hbare : t.Bare) :
    Upholds note (renderComponent id t : Run κ σ Unit) := by
  refine .bind (upholds_tell _) fun _ => fun pending => Triple.get_bind fun w hw => ?_
  dsimp only
  have hgrows := t.grows_mount (w.renderContext id) (w.document (w.component id).document)
    (w.component id).root
  have hhoused := t.housed_mount (w.renderContext id) (w.document (w.component id).document)
    (w.component id).root hbare
  have hnew := fun (node : NodeId) (hnode : node ∈ _) => t.le_of_mem_handles_mount
    (w.renderContext id) (w.document (w.component id).document) (w.component id).root hbare hnode
  generalize t.mount (w.renderContext id) (w.document (w.component id).document)
    (w.component id).root = rendered at hgrows hhoused hnew ⊢
  refine Triple.bind (Q := fun _ w' => w' = w.setDocument (w.component id).document rendered.document)
    (Triple.modify fun _ he => by rw [he]) fun _ => ?_
  refine Triple.bind (Q := fun _ => Orderly note pending []) (Triple.modify ?_) fun _ => ?_
  · rintro _ rfl
    exact hw.render hgrows hhoused hnew
  refine Triple.bind (upholds_tell _ pending) fun _ => ?_
  cases rendered.fault with
  | some f => exact Upholds.throw _ pending
  | none => exact Upholds.pure _ pending

theorem upholds_bringUp (id : ComponentId) (config : Config κ) :
    Upholds note (bringUp handle id config) := by
  refine .bind (upholds_runHook hhandle id config.created) fun _ => ?_
  refine .bind (upholds_tell _) fun _ => .get_bind fun w => .get_bind fun w' => ?_
  dsimp only
  split
  · exact .pure _
  · refine .bind (upholds_renderComponent id (Template.bare_ofContents _)) fun _ => ?_
    refine .bind (upholds_runHook hhandle id config.mounted) fun _ => ?_
    exact .bind (upholds_tell _) fun _ => .pure _

/-- **Making a component** on a document that is there. -/
theorem mount_upholds (pending : SubscriberId → Nat) (document : DocumentId) (config : Config κ) :
    Triple (fun w => Orderly note pending [] w ∧ document < w.documents.size)
      (mount handle document config) (fun _ => Orderly note pending [])
      (Orderly note pending []) := by
  unfold mount
  refine Triple.bind (Q := fun _ w => Orderly note pending [] w ∧ document < w.documents.size)
    (Triple.modify fun _ h => ⟨h.1.tell _, h.2⟩) fun _ => ?_
  cases Selector.parse config.el with
  | error e => exact (Upholds.pure _ pending).pre fun _ h => h.1
  | ok selector =>
    refine Triple.get_bind fun w hw => ?_
    cases selector.query (w.document document) with
    | none => exact (Upholds.pure _ pending).at_world hw.1
    | some root =>
      refine Triple.get_bind fun w' he => ?_
      subst he
      refine Triple.bind (Q := fun _ => Orderly note pending []) (Triple.modify ?_) fun _ => ?_
      · rintro _ rfl
        exact hw.1.addComponent hw.2 root config
      refine Triple.tryCatch (Triple.bind (upholds_bringUp hhandle _ config pending) fun result => ?_)
        fun f => ?_
      · cases result with
        | ok _ => exact Upholds.pure _ pending
        | error e =>
          exact Upholds.bind (.modify fun _ _ h => h.releaseComponent _) (fun _ => .pure _) pending
      · exact Upholds.bind (.modify fun _ _ h => h.releaseComponent _) (fun _ => .throw f) pending

omit hhandle in
/-- A new document from markup is there. -/
theorem parseDocument_upholds (pending : SubscriberId → Nat) (source : String) :
    Triple (Orderly note pending []) (parseDocument source : Run κ σ _)
      (fun result w => Orderly note pending [] w ∧ ∀ id, result = .ok id → id < w.documents.size)
      (Orderly note pending []) := by
  refine Triple.bind (upholds_tell _ pending) fun _ => ?_
  cases (Document.parse source : Except Markup.Error (Document (Action κ))) with
  | error e => exact Triple.pure fun w h => ⟨h, fun id hid => by cases hid⟩
  | ok d =>
    refine Triple.get_bind fun w hw => ?_
    refine Triple.bind (Q := fun _ w' => w' = { w with documents := w.documents.push d })
      (Triple.modify fun _ he => by rw [he]) fun _ => ?_
    refine Triple.pure ?_
    rintro _ rfl
    refine ⟨hw.pushDocument d, fun id hid => ?_⟩
    cases hid
    exact Nat.lt_of_lt_of_eq (Nat.lt_succ_self _) (Array.size_push _).symm

/-- **Making a component** on a new document. -/
theorem upholds_mountMarkup (source : String) (config : Config κ) :
    Upholds note (mountMarkup handle source config) := by
  refine fun pending => Triple.bind (parseDocument_upholds pending source) fun result => ?_
  cases result with
  | error e => exact (Upholds.pure _ pending).pre fun _ h => h.1
  | ok document =>
    exact ((mount_upholds hhandle pending document config).pre fun _ h => ⟨h.1, h.2 _ rfl⟩).map
      fun _ _ h => h

end

end BoundView.Run
