import BoundView.Proofs.Component.Conduct
import BoundView.Proofs.Rendering.Markup
import BoundView.Proofs.Tree.Alike
import BoundView.Proofs.World.Durable

/-!
# Computations keep durable properties

If running a handler keeps a durable property, then so does every computation that may run handlers:
writes with their rounds, events on their way along a path, calls of methods, and the making of
components. So does every demand of user code, if it keeps to the latitude.

User code may render templates by itself. It can only hand in templates that were compiled, in which
nothing lies under a text or a comment.

Main statements: `keeps_dispatch`, `keeps_mount`, `keeps_perform`.
-/

namespace BoundView

open BoundView.Dom (Document NodeId)
open BoundView.World (Durable)

/-- **What user code can really ask for**: the templates that it renders are proper. -/
def Demand.Lawful {κ : Type} : Demand κ → Prop
  | .render _ t _ _ _ => t.Proper
  | _ => True

namespace Run

variable {κ σ α : Type} {I : World κ σ → Prop} {l : Latitude} (hI : Durable I l)

include hI

/-! ## Documents -/

theorem keeps_tell (traces : List Trace) : Keeps I (tell traces : Run κ σ Unit) :=
  .modify fun _ h => hI.tell h traces

omit hI in
theorem keeps_readDocument (document : DocumentId)
    (read : Document (Action κ) → Except Dom.Fault α) : Keeps I (readDocument document read) := by
  apply Keeps.get_bind
  intro w _
  unfold ofDocument
  cases read (w.document document) with
  | ok a => exact .pure a
  | error f => exact .throw _

theorem keeps_setValue (document : DocumentId) (node : NodeId) (value : String) :
    Keeps I (editDocument document (·.setValue node value) : Run κ σ Bool) := by
  apply editDocument_spec
  intro w hw
  cases hset : (w.document document).setValue node value with
  | ok r => exact hI.setDocument hw (.setValue hset) fun _ hcoherent => hcoherent.setValue hset
  | error f => exact hw

/-! ## Writes -/

theorem keeps_refresh (id : ComponentId) (key : String) :
    Keeps I (refresh id key : Run κ σ PatchStats) := by
  apply Keeps.get_bind
  intro w _
  dsimp only
  cases (w.component id).template with
  | none => exact .pure _
  | some t =>
    refine .bind (.modify fun w h => hI.modifyComponent id (fun _ => rfl) h) fun _ => ?_
    refine .bind (keeps_tell hI _) fun _ => .get_modify ?_ fun w' _ =>
      .bind (keeps_tell hI _) fun _ => ?_
    · intro w' hw'
      exact hI.setDocument hw' (Template.grows_patch _ _ _ _) fun _ hcoherent =>
        Template.coherent_patch hcoherent _ _ _
    · split
      · exact .throw _
      · exact .bind (keeps_tell hI _) fun _ => .pure _

theorem keeps_notify {turn : SubscriberId → Run κ σ Unit} (hturn : ∀ s, Keeps I (turn s))
    (round : List SubscriberId) : Keeps I (notify turn round) := by
  induction round with
  | nil => exact .pure _
  | cons s round ih =>
    refine .bind (.tryCatch (hturn s) fun f => ?_) fun _ => ?_
    · exact .bind (.modify fun _ h => hI.releaseSubscribers h (s :: round)) fun _ => .throw f
    · exact .bind (.modify fun _ h => hI.releaseSubscriber h s) fun _ => ih

theorem keeps_subscribe (cell : CellId) (reaction : Reaction κ) :
    Keeps I (subscribe cell reaction : Run κ σ SubscriberId) :=
  .get_bind fun _ _ => .bind (.modify fun _ h => hI.subscribe h cell reaction) fun _ => .pure _

theorem keeps_subscribeKey (store : Store) (key : String) (reaction : Reaction κ) :
    Keeps I (subscribeKey store key reaction : Run κ σ (Except Component.Error SubscriberId)) := by
  unfold subscribeKey
  cases store.cell? key with
  | none => exact .pure _
  | some cell => exact (keeps_subscribe hI cell reaction).map _

theorem keeps_holding (id : ComponentId) {body : Run κ σ α} (hbody : Keeps I body) :
    Keeps I (holding id body) :=
  .holding (fun _ h => hI.holdComponent h id) hbody fun _ h => hI.releaseComponent h id

section

variable {handle : Handle κ σ} (hhandle : ∀ run occasion, Keeps I (handle run occasion))

include hhandle

/-- **Any subscriber's turn.** -/
theorem keeps_react (s : SubscriberId) (value : Value) : Keeps I (react handle s value) := by
  apply Keeps.get_bind
  intro w _
  cases (w.subscribers[s]?).map Subscriber.reaction with
  | none => exact .pure _
  | some reaction =>
    cases reaction with
    | handler run => exact hhandle run (.write value)
    | patch id key =>
      apply Keeps.get_bind
      intro w' _
      split
      · exact (keeps_refresh hI id key).discard
      · exact .pure _

/-- **A write** with all that follows it. -/
theorem keeps_set (cell : CellId) (value : Value) : Keeps I (set handle cell value) := by
  refine .bind (.modify fun _ h => hI.storeValue h cell value) fun _ => .get_bind fun w _ => ?_
  exact .bind (.modify fun _ h => hI.holdSubscribers h _) fun _ =>
    keeps_notify hI (fun s => keeps_react hI hhandle s value) _

theorem keeps_write (id : ComponentId) (key : String) (value : Value) :
    Keeps I (write handle id key value) := by
  apply Keeps.get_bind
  intro w _
  unfold setKey
  cases (w.component id).store.cell? key with
  | none => exact .pure _
  | some cell => exact .bind (keeps_set hI hhandle cell value) fun _ => .pure _

/-! ## Listeners -/

theorem keeps_call (id : ComponentId) (name : String) (event : EventId) :
    Keeps I (call handle id name event) := by
  apply Keeps.get_bind
  intro w _
  cases (w.component id).method? name with
  | none => exact .pure _
  | some run =>
    exact .bind (keeps_holding hI id (hhandle run (.method id event))) fun _ => .pure _

/-- **One listener's turn.** -/
theorem keeps_runAction (event : EventId) (action : Action κ) :
    Keeps I (runAction handle event action) := by
  cases action with
  | handler run => exact hhandle run (.event event)
  | method id name =>
    apply Keeps.get_bind
    intro w _
    split
    · refine keeps_holding hI id (.bind (keeps_call hI hhandle id name event) fun result => ?_)
      cases result with
      | ok _ => exact .pure _
      | error _ => exact .get_bind fun _ _ => keeps_tell hI _
    · exact .pure _
  | model id key =>
    apply Keeps.get_bind
    intro w _
    split
    · refine keeps_holding hI id (.get_bind fun _ _ => ?_)
      refine .bind (keeps_readDocument _ _) fun value => ?_
      refine .bind (keeps_write hI hhandle id key _) fun result => ?_
      cases result with
      | ok _ => exact .pure _
      | error _ => exact keeps_tell hI _
    · exact .pure _

theorem keeps_runActions (event : EventId) (actions : List (Action κ)) :
    Keeps I (runActions handle event actions) := by
  induction actions with
  | nil => exact .pure _
  | cons action rest ih => exact .bind (keeps_runAction hI hhandle event action) fun _ => ih

/-! ## Events -/

/-- **An event on its way.** -/
theorem keeps_visit (document : DocumentId) {event : EventId} (hevent : l.event event)
    (path : List NodeId) : Keeps I (visit handle document event path) := by
  induction path with
  | nil => exact .pure _
  | cons node path ih =>
    refine .bind (keeps_readDocument _ _).discard fun _ => .get_bind fun w _ => ?_
    refine .bind (.modify fun _ h => hI.pass _ hevent h) fun _ => ?_
    refine .bind (keeps_runActions hI hhandle event _) fun _ => .get_bind fun w' _ => ?_
    split
    · exact .pure _
    · exact .bind ih fun _ => .pure _

theorem keeps_dispatch (document : DocumentId) {event : EventId} (hevent : l.event event) :
    Keeps I (dispatch handle document event) := by
  refine .get_bind fun w _ => .bind (keeps_tell hI _) fun _ => .get_bind fun w' _ => ?_
  refine .bind (keeps_visit hI hhandle document hevent _) fun _ => ?_
  exact .bind (.modify fun _ h => hI.pass _ hevent h) fun _ => .pure _

/-- A new event may be dispatched. -/
theorem keeps_fire (document : DocumentId) (e : Event) : Keeps I (fire handle document e) := by
  refine .get_modify (fun w h => (hI.addEvent e h).1) fun w h => ?_
  exact .bind (keeps_dispatch hI hhandle document (hI.addEvent e h).2) fun _ => .pure _

theorem keeps_click (document : DocumentId) (node : NodeId) : Keeps I (click handle document node) :=
  .bind (keeps_fire hI hhandle document _) fun _ => .pure _

theorem keeps_edit (document : DocumentId) (node : NodeId) (value : String) :
    Keeps I (edit handle document node value) :=
  .bind (keeps_setValue hI document node value).discard fun _ =>
    .bind (keeps_fire hI hhandle document _) fun _ => .pure _

/-! ## Making components -/

omit hI in
theorem keeps_runHook (id : ComponentId) (hook : Option κ) : Keeps I (runHook handle id hook) := by
  cases hook with
  | none => exact .pure _
  | some run => exact hhandle run (.hook id)

omit hhandle in
/-- **Rendering a component**, also where it fails half-way. -/
theorem keeps_renderComponent {id : ComponentId} (hid : l.component id) {t : Template} (ht : t.Proper) :
    Keeps I (renderComponent id t : Run κ σ Unit) := by
  refine .bind (keeps_tell hI _) fun _ => .get_modify ?_ fun w _ => ?_
  · intro w hw
    exact hI.setDocument hw (t.grows_mount _ _ _) fun _ hcoherent =>
      Template.coherent_mount hcoherent (ht.sound _)
  · refine .bind (.modify fun _ h => hI.render _ hid h) fun _ => .bind (keeps_tell hI _) fun _ => ?_
    split
    · exact .throw _
    · exact .pure _

theorem keeps_bringUp {id : ComponentId} (hid : l.component id) (config : Config κ) :
    Keeps I (bringUp handle id config) := by
  refine .bind (keeps_runHook hhandle id config.created) fun _ => ?_
  refine .bind (keeps_tell hI _) fun _ => .get_bind fun w _ => .get_bind fun w' _ => ?_
  dsimp only
  split
  · exact .pure _
  · refine .bind (keeps_renderComponent hI hid (Template.proper_ofContents _)) fun _ => ?_
    refine .bind (keeps_runHook hhandle id config.mounted) fun _ => ?_
    exact .bind (keeps_tell hI _) fun _ => .pure _

/-- **Making a component.** -/
theorem keeps_mount (document : DocumentId) (config : Config κ) :
    Keeps I (mount handle document config) := by
  refine .bind (keeps_tell hI _) fun _ => ?_
  cases Selector.parse config.el with
  | error e => exact .pure _
  | ok selector =>
    apply Keeps.get_bind
    intro w _
    cases selector.query (w.document document) with
    | none => exact .pure _
    | some root =>
      apply Keeps.get_bind
      intro w' hw'
      have hnew := (hI.addComponent hw' document root config).2
      refine .bind (.modify fun _ h => (hI.addComponent h document root config).1) fun _ => ?_
      refine .tryCatch (.bind (keeps_bringUp hI hhandle hnew config) fun result => ?_) fun f => ?_
      · cases result with
        | ok _ => exact .pure _
        | error e => exact .bind (.modify fun _ h => hI.releaseComponent h _) fun _ => .pure _
      · exact .bind (.modify fun _ h => hI.releaseComponent h _) fun _ => .throw f

omit hhandle in
theorem keeps_parseDocument (source : String) :
    Keeps I (parseDocument source : Run κ σ (Except Markup.Error DocumentId)) := by
  refine .bind (keeps_tell hI _) fun _ => ?_
  cases hparse : (Document.parse source : Except Markup.Error (Document (Action κ))) with
  | error e => exact .pure _
  | ok e =>
    refine .get_bind fun w _ => .bind (.modify fun _ h => ?_) fun _ => .pure _
    exact hI.pushDocument (Document.coherent_of_parse hparse) h

theorem keeps_mountMarkup (source : String) (config : Config κ) :
    Keeps I (mountMarkup handle source config) := by
  refine .bind (keeps_parseDocument hI source) fun result => ?_
  cases result with
  | error e => exact .pure _
  | ok document => exact (keeps_mount hI hhandle document config).map _

/-! ## Demands -/

omit hI hhandle in
theorem Keeps.caught {m : Run κ σ Unit} (hm : Keeps I m) : Keeps I (caught m) :=
  .tryCatch (.bind hm fun _ => .pure _) fun _ => .pure _

/-- **Every demand keeps durable properties**, if it keeps to the latitude. -/
theorem keeps_perform {demand : Demand κ}
    (hevent : ∀ document event, demand = .dispatch document event → l.event event)
    (hlawful : l.proper → demand.Lawful) :
    Keeps I (demand.perform handle) := by
  cases demand with
  | makeDocument => exact .modify fun _ h => hI.pushDocument Document.coherent_empty h
  | parseDocument source => exact (keeps_parseDocument hI source).discard
  | edit document operation =>
    exact .modify fun _ h => hI.setDocument h (Document.grows_perform _ operation)
      fun _ hcoherent => hcoherent.perform operation
  | render document t context node replace =>
    refine .modify fun _ h => hI.setDocument h ?_ fun hproper hcoherent => ?_
    · split
      · exact t.grows_mount context _ node
      · exact t.grows_materialize context _ node
    · split
      · exact Template.coherent_mount hcoherent (Template.Proper.sound (hlawful hproper) context)
      · exact Template.coherent_materialize hcoherent (hlawful hproper)
  | patch document t lookup missing key inputs =>
    exact .modify fun _ h => hI.setDocument h (Template.grows_patch _ _ _ _) fun _ hcoherent =>
      Template.coherent_patch hcoherent _ _ _
  | makeCell value => exact .modify fun _ h => hI.addCell h value
  | setCell cell value => exact keeps_set hI hhandle cell value
  | makeStore data => exact .modify fun _ h => hI.makeStore h data
  | subscribeCell cell run =>
    apply Keeps.get_bind
    intro w _
    split
    · exact (keeps_subscribe hI cell _).discard
    · exact .pure _
  | mount document config =>
    apply Keeps.get_bind
    intro w _
    split
    · exact (keeps_mount hI hhandle document config).discard
    · exact .pure _
  | mountMarkup source config => exact (keeps_mountMarkup hI hhandle source config).discard
  | hold component =>
    apply Keeps.get_bind
    intro w _
    split
    · exact .modify fun _ h => hI.holdComponent h component
    · exact .pure _
  | drop component => exact .modify fun _ h => hI.releaseComponent h component
  | write component key value => exact (keeps_write hI hhandle component key value).discard
  | update component key => exact (keeps_refresh hI component key).discard
  | call component name event =>
    apply Keeps.get_bind
    intro w _
    split
    · exact (keeps_call hI hhandle component name event).discard
    · exact .pure _
  | subscribe component key run => exact .get_bind fun _ _ => (keeps_subscribeKey hI _ key _).discard
  | unsubscribe s =>
    apply Keeps.get_bind
    intro w _
    split
    · exact .modify fun _ h => hI.releaseSubscriber h s
    · exact .pure _
  | makeEvent event => exact .modify fun _ h => (hI.addEvent event h).1
  | stop event => exact .modify fun _ h => hI.stop event h
  | dispatch document event =>
    exact (keeps_dispatch hI hhandle document (hevent document event rfl)).discard
  | click document node => exact (keeps_click hI hhandle document node).discard
  | input document node value => exact (keeps_edit hI hhandle document node value).discard

end

end Run

end BoundView
