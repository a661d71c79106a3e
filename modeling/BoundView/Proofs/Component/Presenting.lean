import BoundView.Proofs.Component.Constancy
import BoundView.Proofs.Component.Writeback

/-!
# What a component presents through writes and edits

Once a component is rendered, every text of its template shows what the store says, and its nodes hear
what they were made to hear. User code is **plain** when it writes nothing but keys of components, edits
nothing but live values, and runs handlers that write nothing. Through plain code the component goes on
living and presenting itself, together with all its neighbours on the same document: their writes reach
only nodes of their own.

Main statements: the laws of `World.Presents`; `presents_run`.
-/

namespace BoundView

open BoundView.Dom (Document NodeId)
open BoundView.Dom.Document (SameListeners)
open BoundView.World (Idles Orderly)

variable {κ σ : Type}

/-- **What writes and edits a person can make need**, besides what can be had without writing. -/
def Demand.Plain : Demand κ → Prop
  | .write _ _ _ | .input _ _ _ => True
  | demand => demand.Idle

/-- **User code that writes keys and edits live values**, and nothing else. -/
def Conduct.Plain : Conduct κ σ → Prop
  | .done | .fail _ => True
  | .look next => ∀ w, (next w).Plain
  | .note _ next => next.Plain
  | .ask demand next => demand.Plain ∧ ∀ fault, (next fault).Plain

/-- **The nodes that are bound to a key carry edits to it**: of the listeners for edits the last one
does, and it alone. -/
def Template.Carries (t : Template) (d : Document (Action κ)) (id : ComponentId) : Prop :=
  ∀ p ∈ t.preorder, ∀ node key, p.rendered = some node → p.modelKey? = some key →
    ∃ first : List (Action κ), (∀ action ∈ first, ∀ id key, action ≠ .model id key) ∧
      (d.listenersFor node "input").map (·.action) = first ++ [.model id key]

theorem Template.Carries.of_sameListeners {t : Template} {d e : Document (Action κ)}
    {id : ComponentId} (h : t.Carries d id) (hsame : SameListeners d e) : t.Carries e id := by
  intro p hp node key hnode hkey
  rw [hsame.listenersFor]
  exact h p hp node key hnode hkey

/-- **Rendered nodes carry edits**: what an element hears are the methods of its events, and then the edits
of the key that it is bound to. -/
theorem Template.carries_mount {context : RenderContext (Action κ)} {id : ComponentId}
    (hbinder : context.binder = Component.binder id) {d : Document (Action κ)} {root : NodeId}
    {t : Template} (hbare : t.Bare) (hfault : (t.mount context d root).fault = none) :
    (t.mount context d root).template.Carries (t.mount context d root).document id := by
  intro p hp node key hnode hkey
  obtain ⟨other, seed, first, hother, hseed, hlisteners⟩ :=
    (mount_displays hbare hfault).2 p hp (Part.isRendered_of_rendered hnode)
  obtain rfl : other = node := Option.some.inj (hother.symm.trans hnode)
  have hheard : ((t.mount context d root).document.listenersFor other "input").map (·.action) =
      (seed.listeners.filter (·.1 == "input")).map Prod.snd := by
    rw [← Document.map_numbered first seed.listeners, ← hlisteners, List.filter_map, List.map_map]
    rfl
  cases p with
  | comment raw => cases hnode
  | text raw rendered => cases hkey
  | element tag attributes rendered =>
    cases hseed
    rw [hheard, hkey, hbinder]
    refine ⟨((Part.element tag attributes rendered).events.filter (·.1 == "input")).map
      fun event => .method id (Text.trimmed event.2), ?_, ?_⟩
    · intro action haction
      obtain ⟨_, _, rfl⟩ := List.mem_map.mp haction
      intro _ _ he
      cases he
    · simp [Component.binder, List.filter_map, Function.comp_def]

namespace World

/-- **A component that presents itself**: while it is alive and once it is rendered, its bound nodes carry
edits, and its template is displayed but for live values. -/
structure Presents (w : World κ σ) (id : ComponentId) : Prop where
  hears : ∀ t, w.isAlive id = true → (w.component id).template = some t →
    t.Carries (w.document (w.component id).document) id
  shows : ∀ t, w.isAlive id = true → (w.component id).template = some t →
    Displays (w.document (w.component id).document) (w.lookup (w.component id).store)
      (w.component id).options.missingKey (fun _ _ => True) t

namespace Presents

variable {w w' : World κ σ} {note : σ → Prop} {pending : SubscriberId → Nat} {id : ComponentId}

/-- What has to be shown of an edit: it brings the component not back to life, keeps the listeners, and
displays the template still. -/
theorem congr (h : w.Presents id) (halive : w'.isAlive id = w.isAlive id)
    (hcomponent : ∃ scans holders, w'.component id = { w.component id with scans, holders })
    (hsame : ∀ t, w.isAlive id = true → (w.component id).template = some t →
      SameListeners (w.document (w.component id).document)
          (w'.document (w.component id).document) ∧
        (Displays (w.document (w.component id).document) (w.lookup (w.component id).store)
            (w.component id).options.missingKey (fun _ _ => True) t →
          Displays (w'.document (w.component id).document) (w'.lookup (w.component id).store)
            (w.component id).options.missingKey (fun _ _ => True) t)) : w'.Presents id := by
  obtain ⟨_, _, hcomponent⟩ := hcomponent
  constructor
  · intro t hliving ht
    rw [halive] at hliving
    rw [hcomponent] at ht ⊢
    exact (h.hears t hliving ht).of_sameListeners (hsame t hliving ht).1
  · intro t hliving ht
    rw [halive] at hliving
    rw [hcomponent] at ht ⊢
    exact (hsame t hliving ht).2 (h.shows t hliving ht)

/-- Idling is not seen. -/
theorem idles (h : w.Presents id) (hw : w.Orderly note pending []) (hidles : w.Idles w') :
    w'.Presents id := by
  obtain ⟨holders, hcomponent⟩ := hidles.component id
  apply h.congr (hidles.isAlive id) ⟨_, holders, hcomponent⟩
  intro t _ ht
  rw [hidles.document _ (hw.document_lt id (lt_of_template ht)), hidles.lookup (hw.cell_lt id)]
  exact ⟨fun _ => rfl, fun hshown => hshown⟩

/-- A person edits a live value. -/
theorem setValue (h : w.Presents id) (hw : w.Orderly note pending []) {document : DocumentId}
    {node : NodeId} {text : String} {changed : Bool} {d : Document (Action κ)}
    (hset : (w.document document).setValue node text = .ok (changed, d)) :
    (w.setDocument document d).Presents id := by
  have hnode : node < (w.document document).size := Affected.lt_of_write (a := .input node "") hset
  obtain ⟨_, _, hset', hrevises⟩ := Document.setValue_spec hnode text
  cases hset.symm.trans hset'
  refine h.congr rfl ⟨_, _, rfl⟩ fun t _ ht => ?_
  by_cases hdocument : (w.component id).document = document
  · subst hdocument
    rw [document_setDocument (hw.document_lt id (lt_of_template ht))]
    refine ⟨hrevises.listeners, fun hshown p hp n hn => ?_⟩
    exact (hshown p hp n hn).assign hrevises (fun _ => trivial) fun _ => trivial
  · rw [document_setDocument_of_ne hdocument]
    exact ⟨fun _ => rfl, fun hshown => hshown⟩

/-! ## Writes -/

variable {other : ComponentId} {t : Template} {key : String} {cell : CellId}

/-- A value is stored that the component does not show. -/
theorem storeValue (h : w.Presents id) (hw : w.Orderly note pending [])
    (hcell : (w.component other).store.cell? key = some cell)
    (hother : ∀ t, w.isAlive id = true → (w.component id).template = some t → id ≠ other)
    (value : Value) : (w.storeValue cell value).Presents id := by
  refine h.congr rfl ⟨_, _, rfl⟩ fun t halive ht => ⟨fun _ => rfl, fun hshown => ?_⟩
  have hlookup : (w.storeValue cell value).lookup (w.component id).store =
      w.lookup (w.component id).store := by
    unfold lookup
    rw [hw.value?_strangers hcell value (hother t halive ht)]
  rw [hlookup]
  exact hshown

/-- **The component is brought up to date** for a key of its own. -/
theorem refreshed_self (h : w.Presents id) (hw : w.Orderly note pending [])
    (ht : (w.component id).template = some t) (hcell : (w.component id).store.cell? key = some cell)
    (value : Value) : ((w.storeValue cell value).refreshed id t key).Presents id := by
  have htouched : Touched w id t key cell value ((w.storeValue cell value).refreshed id t key) :=
    hw.touched ht hcell value _
  have halive : ((w.storeValue cell value).refreshed id t key).isAlive id = w.isAlive id := by
    unfold isAlive
    rw [htouched.component]
  apply h.congr halive ⟨_, _, htouched.component⟩
  intro t' _ ht'
  obtain rfl := Option.some.inj (ht.symm.trans ht')
  refine ⟨htouched.document.listeners, fun hshown => ?_⟩
  have hagree : ∀ k, k ≠ key → (w.storeValue cell value).lookup (w.component id).store k =
      w.lookup (w.component id).store k := by
    intro k hk
    unfold lookup
    rw [value?_storeValue (hw.separate_store id) hcell (hw.cell_lt id key cell hcell),
      overwritten_of_ne hk]
  rw [hw.document_refreshed ht]
  exact (hshown.patch (hw.housed id t ht).nodup hagree (fun _ _ _ => trivial)
    fun _ _ _ _ _ => .inl trivial).2.2

/-- **Another component is brought up to date.** -/
theorem refreshed_other (h : w.Presents id) (hw : w.Orderly note pending [])
    (hne : id ≠ other) (ht : (w.component other).template = some t)
    (hcell : (w.component other).store.cell? key = some cell) (value : Value) :
    ((w.storeValue cell value).refreshed other t key).Presents id := by
  have htouched : Touched w other t key cell value
      ((w.storeValue cell value).refreshed other t key) := hw.touched ht hcell value _
  have hcomponent := htouched.components.2 id hne
  have halive : ((w.storeValue cell value).refreshed other t key).isAlive id = w.isAlive id := by
    unfold isAlive
    rw [hcomponent]
  have hlookup : ((w.storeValue cell value).refreshed other t key).lookup (w.component id).store =
      w.lookup (w.component id).store := by
    unfold lookup
    rw [htouched.strangers id hne]
  apply h.congr halive ⟨_, _, hcomponent⟩
  intro t' _ ht'
  rw [hlookup]
  by_cases hdocument : (w.component id).document = (w.component other).document
  · have hlinks := htouched.document.links
    have hlisteners := htouched.document.listeners
    rw [← hdocument] at hlinks hlisteners
    refine ⟨hlisteners, fun hshown p hp node hnode => ?_⟩
    obtain ⟨hthere, hkept, _⟩ := hshown p hp node hnode
    have hcontent := htouched.apart id t' hne ht' node (Template.mem_handles.mpr ⟨p, hp, hnode⟩)
    exact ⟨hlinks.size ▸ hthere, hcontent ▸ hkept, fun hfirm => absurd trivial hfirm⟩
  · rw [htouched.documents.2 _ hdocument]
    exact ⟨fun _ => rfl, fun hshown => hshown⟩

/-- **A write** to any component. -/
theorem written (h : w.Presents id) (hw : w.Orderly note pending []) (other : ComponentId)
    (key : String) (value : Value) : (w.written other key value).Presents id := by
  unfold World.written
  cases hcell : (w.component other).store.cell? key with
  | none => exact h
  | some cell =>
    dsimp only
    unfold renewed
    cases ht : ((w.storeValue cell value).component other).template with
    | none =>
      refine h.storeValue hw hcell ?_ value
      rintro t _ ht' rfl
      cases ht'.symm.trans ht
    | some t =>
      dsimp only
      by_cases halive : (w.storeValue cell value).isAlive other = true
      · rw [if_pos halive]
        by_cases hother : id = other
        · subst hother
          exact h.refreshed_self hw ht hcell value
        · exact h.refreshed_other hw hother ht hcell value
      · rw [if_neg halive]
        refine h.storeValue hw hcell ?_ value
        rintro _ hliving _ rfl
        exact halive hliving

/-- **An edit that is carried** to a key of any component. -/
theorem carried (h : w.Presents id) (hw : w.Orderly note pending []) (event : EventId)
    (other : ComponentId) (key : String) : (w.carried event other key).Presents id := by
  unfold World.carried
  split
  · exact h.written hw other key _
  · exact h

end Presents

/-- An orderly world in which a component presents itself. -/
def Shown (note : σ → Prop) (id : ComponentId) (w : World κ σ) : Prop :=
  (∃ pending, w.Orderly note pending []) ∧ w.Presents id

theorem Shown.tell {note : σ → Prop} {id : ComponentId} {w : World κ σ} (h : w.Shown note id)
    (traces : List Trace) : (w.tell traces).Shown note id := by
  obtain ⟨⟨pending, hw⟩, hpresents⟩ := h
  exact ⟨⟨pending, hw.tell traces⟩, hpresents.idles hw (Idles.tell w traces)⟩

end World

/-! ## Through plain user code -/

namespace Run

open BoundView.World (Shown)

variable {α β : Type} {note : σ → Prop} {id : ComponentId}
  {handle : Handle κ σ}

/-- What keeps order, and keeps a component presented from each orderly world. -/
theorem keeps_shown {m : Run κ σ α} (hupholds : Upholds note m)
    (hpresents : ∀ w pending, w.Orderly note pending [] → w.Presents id →
      Triple (· = w) m (fun _ w' => w'.Presents id) fun w' => w'.Presents id) :
    Keeps (Shown note id) m := by
  rintro w ⟨⟨pending, hw⟩, h⟩
  have hrun := ((hupholds pending).and (hpresents w pending hw h)) w ⟨hw, rfl⟩
  exact hrun.weaken (fun _ _ h => ⟨⟨pending, h.1⟩, h.2⟩) fun _ h => ⟨⟨pending, h.1⟩, h.2⟩

/-- What writes nothing keeps a component presented. -/
theorem Idle.keeps_shown {faulty : Prop} {m : Run κ σ α} (hidle : Idle faulty m)
    (hupholds : Upholds note m) : Keeps (Shown note id) m := by
  apply Run.keeps_shown hupholds
  intro w pending hw h
  exact ((hidle w).at_world (Idles.refl w)).weaken (fun _ h => h) (fun _ _ h' => h.idles hw h')
    fun _ h' => h.idles hw h'.2

section

variable (hmute : Mute note handle)

include hmute

/-- **A write.** -/
theorem shown_write (other : ComponentId) (key : String) (value : Value) :
    Keeps (Shown note id) (write handle other key value) := by
  apply keeps_shown (upholds_write hmute.upholds other key value)
  intro w pending hw h
  refine (write_written hmute.idle_write hw other key value).weaken (fun _ h => h) ?_
    fun _ h => h.elim
  exact fun _ _ h' => (h.written hw other key value).idles (hw.written other key value) h'

/-- **One listener's turn.** -/
theorem shown_runAction (event : EventId) (action : Action κ) :
    Keeps (Shown note id) (runAction handle event action) := by
  have hupholds := upholds_runAction hmute.upholds event action
  cases action with
  | handler run =>
    exact (idle_runAction hmute.idle event fun _ _ he => by cases he).keeps_shown hupholds
  | method other name =>
    exact (idle_runAction hmute.idle event fun _ _ he => by cases he).keeps_shown hupholds
  | model other key =>
    apply keeps_shown hupholds
    intro w pending hw h
    refine (runAction_model hmute.idle_write hw event other key).weaken (fun _ h => h) ?_ ?_
    · exact fun _ _ h' => (h.carried hw event other key).idles (hw.carried event other key) h'
    · exact fun _ h' => h.idles hw h'.2

theorem shown_runActions (event : EventId) (actions : List (Action κ)) :
    Keeps (Shown note id) (runActions handle event actions) := by
  induction actions with
  | nil => exact .pure _
  | cons action rest ih => exact .bind (shown_runAction hmute event action) fun _ => ih

omit hmute in
theorem shown_modify {f : World κ σ → World κ σ} (hidles : ∀ w : World κ σ, w.Idles (f w))
    (horderly : ∀ (w : World κ σ) pending, w.Orderly note pending [] →
      (f w).Orderly note pending []) : Keeps (Shown note id) (modify f : Run κ σ Unit) := by
  have hidle : Idle False (modify f : Run κ σ Unit) := .modify hidles
  exact hidle.keeps_shown (.modify fun _ _ h => horderly _ _ h)

/-- **A walk along a path.** -/
theorem shown_visit (document : DocumentId) (event : EventId) (path : List NodeId) :
    Keeps (Shown note id) (visit handle document event path) := by
  induction path with
  | nil => exact .pure _
  | cons node path ih =>
    refine .bind (keeps_readDocument _ _).discard fun _ => .get_bind fun w _ => ?_
    refine .bind (shown_modify (fun w => Idles.modifyEvent w event fun _ => ⟨rfl, rfl⟩)
      fun _ _ h => h.modifyEvent event _) fun _ => ?_
    refine .bind (shown_runActions hmute event _) fun _ => .get_bind fun w' _ => ?_
    split
    · exact .pure _
    · exact .bind ih fun _ => .pure _

/-- **An event.** -/
theorem shown_fire (document : DocumentId) (e : Event) :
    Keeps (Shown note id) (fire handle document e) := by
  refine .get_bind fun w _ => ?_
  refine .bind (shown_modify (fun w => Idles.addEvent w e) fun _ _ h => h.addEvent e) fun _ => ?_
  refine .bind (.get_bind fun w _ => ?_) fun _ => .pure _
  refine .bind (shown_modify (fun w => Idles.tell w _) fun _ _ h => h.tell _) fun _ => ?_
  refine .get_bind fun w _ => .bind (shown_visit hmute document _ _) fun _ => ?_
  exact .bind (shown_modify (fun w => Idles.modifyEvent w _ fun _ => ⟨rfl, rfl⟩)
    fun _ _ h => h.modifyEvent _ _) fun _ => .pure _

/-- **An edit** by a person. -/
theorem shown_edit (document : DocumentId) (node : NodeId) (text : String) :
    Keeps (Shown note id) (edit handle document node text) := by
  refine .bind (Keeps.discard ?_) fun _ => .bind (shown_fire hmute document _) fun _ => .pure _
  apply keeps_shown (upholds_editDocument document fun _ _ hset => .setValue hset)
  intro w pending hw h
  apply editDocument_spec
  intro w' he
  subst he
  cases hset : (w'.document document).setValue node text with
  | ok r => exact h.setValue hw hset
  | error f => exact h

end

/-! ## Plain demands -/

/-- **Every plain demand keeps a component presented.** -/
theorem shown_perform (hmute : Mute note handle) {demand : Demand κ} (hplain : demand.Plain) :
    Keeps (Shown note id) (demand.perform handle) := by
  have hidle : demand.Idle → Keeps (Shown note id) (demand.perform handle) := fun h =>
    (idle_perform (fun run id event => (hmute.idle run (.method id event)
      fun _ he => by cases he).mono) h).keeps_shown (upholds_perform hmute.upholds demand)
  cases demand with
  | write other key value => exact (shown_write hmute other key value).discard
  | input document node text => exact (shown_edit hmute document node text).discard
  | _ => exact hidle hplain

/-- **Plain user code keeps a component presented.** -/
theorem shown_run {handle : Handle κ (Diary κ σ)} (hmute : Mute Diary.Orderly handle)
    {conduct : Conduct κ σ} (hplain : conduct.Plain) :
    Keeps (Shown Diary.Orderly id) (conduct.run handle) := by
  induction conduct with
  | done => exact .pure _
  | fail f => exact .throw f
  | look next ih => exact .get_bind fun w _ => ih w.seen (hplain w.seen)
  | note change next ih =>
    refine .bind (shown_modify (fun w => Idles.modifyHost w _) ?_) fun _ => ih hplain
    exact fun _ _ h => h.modifyHost _ fun hnoted => hnoted
  | ask demand next ih =>
    refine .bind (shown_perform hmute hplain.1).caught fun fault => ?_
    refine .bind (shown_modify (fun w => Idles.modifyHost w _) ?_) fun _ => ih fault (hplain.2 fault)
    exact fun _ _ h => Diary.Orderly.noteReturn h

end Run

end BoundView
