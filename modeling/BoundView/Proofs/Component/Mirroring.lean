import BoundView.Proofs.Component.Conduct
import BoundView.Proofs.World.Mirrored

/-!
# Computations carry the caller's state along

If running a handler does the same with one state of the caller's as with another that is made of it, so
does every computation that may run handlers, and every demand of user code.

Main statements: `mirrors_dispatch`, `mirrors_mount`, `mirrors_perform`.
-/

namespace BoundView.Run

open BoundView.Dom (Document NodeId)

variable {κ σ τ α : Type} {f : σ → τ}

/-! ## Documents -/

theorem mirrors_tell (traces : List Trace) :
    Mirrors f (tell traces : Run κ σ Unit) (tell traces : Run κ τ Unit) :=
  .modify fun _ => rfl

theorem mirrors_ofDocument (result : Except Dom.Fault α) :
    Mirrors f (ofDocument result : Run κ σ α) (ofDocument result : Run κ τ α) := by
  cases result with
  | ok a => exact .pure a
  | error e => exact .throw _

theorem mirrors_readDocument (document : DocumentId)
    (read : Document (Action κ) → Except Dom.Fault α) :
    Mirrors f (readDocument document read : Run κ σ α) (readDocument document read : Run κ τ α) :=
  .get_bind fun _ => mirrors_ofDocument _

theorem mirrors_editDocument (document : DocumentId)
    (edit : Document (Action κ) → Except Dom.Fault (α × Document (Action κ))) :
    Mirrors f (editDocument document edit : Run κ σ α) (editDocument document edit : Run κ τ α) :=
  .get_bind fun _ => .bind (mirrors_ofDocument _) fun _ => .bind (.modify fun _ => rfl) fun _ => .pure _

/-! ## Writes -/

theorem mirrors_refresh (id : ComponentId) (key : String) :
    Mirrors f (refresh id key : Run κ σ PatchStats) (refresh id key : Run κ τ PatchStats) := by
  refine .get_bind fun w => ?_
  rw [World.component_mapHost]
  dsimp only
  cases (w.component id).template with
  | none => exact .pure _
  | some t =>
    refine .bind (.modify fun _ => rfl) fun _ => .bind (mirrors_tell _) fun _ => .get_bind fun w' => ?_
    rw [World.patched_mapHost]
    refine .bind (.modify fun _ => rfl) fun _ => .bind (mirrors_tell _) fun _ => ?_
    cases (w'.patched (w.component id) t key).fault with
    | some e => exact .throw _
    | none => exact .bind (mirrors_tell _) fun _ => .pure _

theorem mirrors_notify {turn : SubscriberId → Run κ σ Unit} {turn' : SubscriberId → Run κ τ Unit}
    (hturn : ∀ s, Mirrors f (turn s) (turn' s)) (round : List SubscriberId) :
    Mirrors f (notify turn round) (notify turn' round) := by
  induction round with
  | nil => exact .pure _
  | cons s round ih =>
    refine .bind (.tryCatch (hturn s) fun e => ?_) fun _ => .bind (.modify fun _ => rfl) fun _ => ih
    exact .bind (.modify fun w => (List.foldl_hom (World.mapHost f) fun _ _ => rfl).symm) fun _ => .throw e

theorem mirrors_subscribe (cell : CellId) (reaction : Reaction κ) :
    Mirrors f (subscribe cell reaction : Run κ σ SubscriberId) (subscribe cell reaction) :=
  .get_bind fun _ => .bind (.modify fun _ => rfl) fun _ => .pure _

theorem mirrors_subscribeKey (store : Store) (key : String) (reaction : Reaction κ) :
    Mirrors f (subscribeKey store key reaction : Run κ σ (Except Component.Error SubscriberId))
      (subscribeKey store key reaction) := by
  unfold subscribeKey
  cases store.cell? key with
  | none => exact .pure _
  | some cell => exact (mirrors_subscribe cell reaction).map _

section

variable {handle : Handle κ σ} {handle' : Handle κ τ}
  (hhandle : ∀ run occasion, Mirrors f (handle run occasion) (handle' run occasion))

include hhandle

/-- **Any subscriber's turn.** -/
theorem mirrors_react (s : SubscriberId) (value : Value) :
    Mirrors f (react handle s value) (react handle' s value) := by
  refine .get_bind fun w => ?_
  rw [World.subscribers_mapHost]
  cases (w.subscribers[s]?).map Subscriber.reaction with
  | none => exact .pure _
  | some reaction =>
    cases reaction with
    | handler run => exact hhandle run (.write value)
    | patch id key =>
      refine .get_bind fun w' => ?_
      rw [World.isAlive_mapHost]
      split
      · exact (mirrors_refresh id key).discard
      · exact .pure _

/-- **A write** with all that follows it. -/
theorem mirrors_set (cell : CellId) (value : Value) :
    Mirrors f (set handle cell value) (set handle' cell value) := by
  refine .bind (.modify fun _ => rfl) fun _ => .get_bind fun w => ?_
  rw [World.cell_mapHost]
  exact .bind (.modify fun w => (List.foldl_hom (World.mapHost f) fun _ _ => rfl).symm) fun _ =>
    mirrors_notify (fun s => mirrors_react hhandle s value) _

theorem mirrors_write (id : ComponentId) (key : String) (value : Value) :
    Mirrors f (write handle id key value) (write handle' id key value) := by
  refine .get_bind fun w => ?_
  rw [World.component_mapHost]
  unfold setKey
  cases (w.component id).store.cell? key with
  | none => exact .pure _
  | some cell => exact .bind (mirrors_set hhandle cell value) fun _ => .pure _

/-! ## Listeners -/

theorem mirrors_call (id : ComponentId) (name : String) (event : EventId) :
    Mirrors f (call handle id name event) (call handle' id name event) := by
  refine .get_bind fun w => ?_
  rw [World.component_mapHost]
  cases (w.component id).method? name with
  | none => exact .pure _
  | some run => exact .bind (.holding id (hhandle run (.method id event))) fun _ => .pure _

/-- **One listener's turn.** -/
theorem mirrors_runAction (event : EventId) (action : Action κ) :
    Mirrors f (runAction handle event action) (runAction handle' event action) := by
  cases action with
  | handler run => exact hhandle run (.event event)
  | method id name =>
    refine .get_bind fun w => ?_
    rw [World.isAlive_mapHost]
    split
    · refine .holding id (.bind (mirrors_call hhandle id name event) fun result => ?_)
      cases result with
      | ok _ => exact .pure _
      | error _ => exact .get_bind fun _ => mirrors_tell _
    · exact .pure _
  | model id key =>
    refine .get_bind fun w => ?_
    rw [World.isAlive_mapHost]
    split
    · refine .holding id (.get_bind fun w => ?_)
      refine .bind (mirrors_readDocument _ _) fun value => ?_
      refine .bind (mirrors_write hhandle id key _) fun result => ?_
      cases result with
      | ok _ => exact .pure _
      | error _ => exact mirrors_tell _
    · exact .pure _

theorem mirrors_runActions (event : EventId) (actions : List (Action κ)) :
    Mirrors f (runActions handle event actions) (runActions handle' event actions) := by
  induction actions with
  | nil => exact .pure _
  | cons action rest ih => exact .bind (mirrors_runAction hhandle event action) fun _ => ih

/-! ## Events -/

/-- **An event on its way.** -/
theorem mirrors_visit (document : DocumentId) (event : EventId) (path : List NodeId) :
    Mirrors f (visit handle document event path) (visit handle' document event path) := by
  induction path with
  | nil => exact .pure _
  | cons node path ih =>
    refine .bind (mirrors_readDocument _ _).discard fun _ => .get_bind fun w => ?_
    refine .bind (.modify fun _ => rfl) fun _ => ?_
    refine .bind (mirrors_runActions hhandle event _) fun _ => .get_bind fun w' => ?_
    rw [World.event_mapHost]
    split
    · exact .pure _
    · exact .bind ih fun _ => .pure _

theorem mirrors_dispatch (document : DocumentId) (event : EventId) :
    Mirrors f (dispatch handle document event) (dispatch handle' document event) := by
  refine .get_bind fun w => .bind (mirrors_tell _) fun _ => .get_bind fun w' => ?_
  refine .bind (mirrors_visit hhandle document event _) fun _ => ?_
  exact .bind (.modify fun _ => rfl) fun _ => .pure _

theorem mirrors_fire (document : DocumentId) (e : Event) :
    Mirrors f (fire handle document e) (fire handle' document e) :=
  .get_bind fun _ => .bind (.modify fun _ => rfl) fun _ =>
    .bind (mirrors_dispatch hhandle document _) fun _ => .pure _

theorem mirrors_click (document : DocumentId) (node : NodeId) :
    Mirrors f (click handle document node) (click handle' document node) :=
  .bind (mirrors_fire hhandle document _) fun _ => .pure _

theorem mirrors_edit (document : DocumentId) (node : NodeId) (value : String) :
    Mirrors f (edit handle document node value) (edit handle' document node value) :=
  .bind (mirrors_editDocument document _).discard fun _ =>
    .bind (mirrors_fire hhandle document _) fun _ => .pure _

/-! ## Making components -/

theorem mirrors_runHook (id : ComponentId) (hook : Option κ) :
    Mirrors f (runHook handle id hook) (runHook handle' id hook) := by
  cases hook with
  | none => exact .pure _
  | some run => exact hhandle run (.hook id)

omit hhandle in
theorem mirrors_renderComponent (id : ComponentId) (t : Template) :
    Mirrors f (renderComponent id t : Run κ σ Unit) (renderComponent id t : Run κ τ Unit) := by
  refine .bind (mirrors_tell _) fun _ => .get_bind fun w => ?_
  rw [World.renderContext_mapHost, World.component_mapHost]
  dsimp only
  rw [World.document_mapHost]
  refine .bind (.modify fun _ => rfl) fun _ => .bind (.modify fun _ => rfl) fun _ => ?_
  refine .bind (mirrors_tell _) fun _ => ?_
  cases (t.mount (w.renderContext id) (w.document (w.component id).document)
    (w.component id).root).fault with
  | some e => exact .throw _
  | none => exact .pure _

/-- **From the first hook to the last.** -/
theorem mirrors_bringUp (id : ComponentId) (config : Config κ) :
    Mirrors f (bringUp handle id config) (bringUp handle' id config) := by
  refine .bind (mirrors_runHook hhandle id _) fun _ => .bind (mirrors_tell _) fun _ => ?_
  refine .get_bind fun w => .get_bind fun w' => ?_
  rw [World.component_mapHost, World.compiled_mapHost]
  dsimp only
  generalize (if (w'.component id).options.strict = true then _ else none : Option Component.Error) = verdict
  cases verdict with
  | some e => exact .pure _
  | none =>
    refine .bind (mirrors_renderComponent id _) fun _ => ?_
    exact .bind (mirrors_runHook hhandle id _) fun _ => .bind (mirrors_tell _) fun _ => .pure _

theorem mirrors_mount (document : DocumentId) (config : Config κ) :
    Mirrors f (mount handle document config) (mount handle' document config) := by
  refine .bind (mirrors_tell _) fun _ => ?_
  cases Selector.parse config.el with
  | error e => exact .pure _
  | ok selector =>
    refine .get_bind fun w => ?_
    rw [World.document_mapHost]
    dsimp only
    cases selector.query (w.document document) with
    | none => exact .pure _
    | some root =>
      refine .get_bind fun w' => ?_
      have hrelease : ∀ id : ComponentId, Mirrors f
          (modify (·.releaseComponent id) : Run κ σ Unit) (modify (·.releaseComponent id)) :=
        fun id => .modify fun w => w.mapHost_releaseComponent id
      refine .bind (.modify fun w => w.mapHost_addComponent document root config) fun _ => ?_
      refine .tryCatch (.bind (mirrors_bringUp hhandle _ config) fun result => ?_) fun e => ?_
      · cases result with
        | ok _ => exact .pure _
        | error e => exact .bind (hrelease _) fun _ => .pure _
      · exact .bind (hrelease _) fun _ => .throw e

omit hhandle in
theorem mirrors_parseDocument (source : String) :
    Mirrors f (parseDocument source : Run κ σ (Except Markup.Error DocumentId)) (parseDocument source) := by
  refine .bind (mirrors_tell _) fun _ => ?_
  cases Dom.Document.parse source with
  | error e => exact .pure _
  | ok d => exact .get_bind fun _ => .bind (.modify fun _ => rfl) fun _ => .pure _

theorem mirrors_mountMarkup (source : String) (config : Config κ) :
    Mirrors f (mountMarkup handle source config) (mountMarkup handle' source config) := by
  refine .bind (mirrors_parseDocument source) fun result => ?_
  cases result with
  | error e => exact .pure _
  | ok document => exact (mirrors_mount hhandle document config).map _

/-! ## Demands -/

/-- **A demand** is met in the same way. -/
theorem mirrors_perform (demand : Demand κ) :
    Mirrors f (demand.perform handle) (demand.perform handle') := by
  cases demand with
  | makeDocument => exact .modify fun _ => rfl
  | parseDocument source => exact (mirrors_parseDocument source).discard
  | edit document operation => exact .modify fun _ => rfl
  | render document t context node replace => exact .modify fun _ => rfl
  | patch document t lookup missing key inputs => exact .modify fun _ => rfl
  | makeCell value => exact .modify fun _ => rfl
  | setCell cell value => exact mirrors_set hhandle cell value
  | makeStore data => exact .modify fun w => (congrArg Prod.snd (w.makeStore_mapHost data)).symm
  | subscribeCell cell run =>
    refine .get_bind fun w => ?_
    rw [World.cells_mapHost]
    split
    · exact (mirrors_subscribe cell _).discard
    · exact .pure _
  | mount document config =>
    refine .get_bind fun w => ?_
    rw [World.documents_mapHost]
    split
    · exact (mirrors_mount hhandle document config).discard
    · exact .pure _
  | mountMarkup source config => exact (mirrors_mountMarkup hhandle source config).discard
  | hold component =>
    refine .get_bind fun w => ?_
    rw [World.isAlive_mapHost]
    split
    · exact .modify fun _ => rfl
    · exact .pure _
  | drop component => exact .modify fun w => w.mapHost_releaseComponent component
  | write component key value => exact (mirrors_write hhandle component key value).discard
  | update component key => exact (mirrors_refresh component key).discard
  | call component name event =>
    refine .get_bind fun w => ?_
    rw [World.isAlive_mapHost]
    split
    · exact (mirrors_call hhandle component name event).discard
    · exact .pure _
  | subscribe component key run => exact .get_bind fun _ => (mirrors_subscribeKey _ key _).discard
  | unsubscribe s =>
    refine .get_bind fun w => ?_
    rw [World.reaction?_mapHost]
    rcases w.reaction? s with _ | ⟨run⟩ | ⟨id, key⟩
    · exact .pure _
    · exact .modify fun _ => rfl
    · exact .pure _
  | makeEvent event => exact .modify fun _ => rfl
  | stop event => exact .modify fun _ => rfl
  | dispatch document event => exact (mirrors_dispatch hhandle document event).discard
  | click document node => exact (mirrors_click hhandle document node).discard
  | input document node value => exact (mirrors_edit hhandle document node value).discard

end

theorem Mirrors.caught {m : Run κ σ Unit} {n : Run κ τ Unit} (h : Mirrors f m n) :
    Mirrors f (Run.caught m) (Run.caught n) :=
  .tryCatch (.bind h fun _ => .pure _) fun _ => .pure _

end BoundView.Run
