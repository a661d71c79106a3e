import BoundView.Proofs.Component.Bubbling
import BoundView.Proofs.Component.Idle
import BoundView.Proofs.Component.Strictness
import BoundView.Proofs.Component.Touching
import BoundView.Proofs.Rendering.LiveValue

/-!
# A write that nobody answers with another

Where the user code that hears of a write writes nothing, the write has one effect: the value is stored,
and the component, if it is alive, is brought up to date for the key, once. Whatever subscribers there
are, and wherever in the round the watcher of the key has its turn, the world is left idle otherwise. The
same goes for the listener that carries an edit to a key, and an event on a path without such listeners
leaves the world idle altogether.

Main statements: `write_written`, `runAction_model`, `visit_idle`.
-/

namespace BoundView

open BoundView.Dom (Document NodeId)
open BoundView.Dom.Document (SameLinks SameListeners)
open BoundView.World (Idles Orderly)

variable {κ σ : Type}

namespace World

variable {w w' : World κ σ} {note : σ → Prop} {pending : SubscriberId → Nat} {id : ComponentId}
  {key : String}

/-! ## The effect of a write -/

/-- The world after a component was brought up to date for a key, if it is alive and rendered. -/
def renewed (w : World κ σ) (id : ComponentId) (key : String) : World κ σ :=
  match (w.component id).template with
  | none => w
  | some t => if w.isAlive id then w.refreshed id t key else w

theorem renewed_of_not_isAlive {w : World κ σ} {id : ComponentId} (h : ¬ w.isAlive id = true)
    (key : String) : w.renewed id key = w := by
  unfold renewed
  cases (w.component id).template with
  | none => rfl
  | some t => exact if_neg h

theorem reaction?_renewed (w : World κ σ) (id : ComponentId) (key : String) (s : SubscriberId) :
    (w.renewed id key).reaction? s = w.reaction? s := by
  unfold renewed
  cases (w.component id).template with
  | none => rfl
  | some t =>
    dsimp only
    split <;> rfl

/-- **What a write to a key of a component leaves**; a key that is not declared is not written. -/
def written (w : World κ σ) (id : ComponentId) (key : String) (value : Value) : World κ σ :=
  match (w.component id).store.cell? key with
  | none => w
  | some cell => (w.storeValue cell value).renewed id key

/-- **What an edit carries to a key** of a component that is alive. -/
def carried (w : World κ σ) (event : EventId) (id : ComponentId) (key : String) : World κ σ :=
  if w.isAlive id then
    w.written id key
      (.str ((w.document (w.component id).document).liveText (w.event event).target))
  else w

theorem patched_congr (h : w.Idles w') (hw : w.Orderly note pending [])
    {t : Template} (ht : (w.component id).template = some t) (key : String) :
    w'.patched (w'.component id) t key = w.patched (w.component id) t key := by
  obtain ⟨_, hcomponent⟩ := h.component id
  unfold patched
  rw [hcomponent]
  dsimp only
  rw [h.lookup (hw.cell_lt id), h.document _ (hw.document_lt id (lt_of_template ht))]

/-- Being brought up to date makes the same difference after idling. -/
theorem Idles.refreshed (h : w.Idles w') (hw : w.Orderly note pending []) {t : Template}
    (ht : (w.component id).template = some t) (key : String) :
    (w.refreshed id t key).Idles (w'.refreshed id t key) := by
  obtain ⟨_, hcomponent⟩ := h.component id
  have hdocument : (w'.component id).document = (w.component id).document := by rw [hcomponent]
  have hlt := hw.document_lt id (lt_of_template ht)
  unfold World.refreshed
  rw [patched_congr h hw ht, hdocument]
  exact (h.countScan id).setDocument hlt _

theorem Idles.renewed (h : w.Idles w') (hw : w.Orderly note pending []) (id : ComponentId)
    (key : String) : (w.renewed id key).Idles (w'.renewed id key) := by
  unfold World.renewed
  rw [h.template, h.isAlive]
  cases ht : (w.component id).template with
  | none => exact h
  | some t =>
    dsimp only
    split
    · exact h.refreshed hw ht key
    · exact h

/-- **A write makes the same difference after idling.** -/
theorem Idles.written (h : w.Idles w') (hw : w.Orderly note pending []) (id : ComponentId)
    (key : String) (value : Value) : (w.written id key value).Idles (w'.written id key value) := by
  unfold World.written
  rw [h.store]
  cases hcell : (w.component id).store.cell? key with
  | none => exact h
  | some cell =>
    exact (h.storeValue (hw.cell_lt id key cell hcell) value).renewed (hw.storeValue cell value) id key

/-- The event is about the same node after idling. -/
theorem Idles.event_target (h : w.Idles w') {event : EventId} {e : Event}
    (hevent : w.events[event]? = some e) : (w'.event event).target = (w.event event).target := by
  obtain ⟨e', hevent', _, htarget⟩ := h.events event e hevent
  rw [event_of_getElem? hevent, event_of_getElem? hevent', htarget]

theorem Idles.document_eq (h : w.Idles w') (id : ComponentId) :
    (w'.component id).document = (w.component id).document := by
  obtain ⟨_, hcomponent⟩ := h.component id
  rw [hcomponent]

/-- **An edit is carried in the same way after idling.** -/
theorem Idles.carried (h : w.Idles w') (hw : w.Orderly note pending []) {event : EventId} {e : Event}
    (hevent : w.events[event]? = some e) (id : ComponentId) (key : String) :
    (w.carried event id key).Idles (w'.carried event id key) := by
  unfold World.carried
  rw [h.isAlive, h.event_target hevent, h.document_eq]
  by_cases halive : w.isAlive id = true
  · rw [if_pos halive, if_pos halive, h.document _ (hw.document_lt id (lt_of_isAlive halive))]
    exact h.written hw id key _
  · rw [if_neg halive, if_neg halive]
    exact h

/-! ## What a write leaves -/

theorem Orderly.renewed (h : w.Orderly note pending []) (id : ComponentId) (key : String) :
    (w.renewed id key).Orderly note pending [] := by
  have hcounted : (w.modifyComponent id fun c => { c with scans := c.scans + 1 }).Orderly note
      pending [] :=
    h.modifyComponent rfl rfl (fun hpos => hpos) (h.watchers id) (h.housed id) (h.apart id)
  unfold World.renewed
  cases (w.component id).template with
  | none => exact h
  | some t =>
    dsimp only
    split
    · exact hcounted.setDocument (Template.grows_patch _ _ _ _)
    · exact h

theorem Orderly.written (h : w.Orderly note pending []) (id : ComponentId) (key : String)
    (value : Value) : (w.written id key value).Orderly note pending [] := by
  unfold World.written
  cases (w.component id).store.cell? key with
  | none => exact h
  | some cell => exact (h.storeValue cell value).renewed id key

theorem component_refreshed (w : World κ σ) (id : ComponentId) (t : Template) (key : String)
    (other : ComponentId) :
    ∃ scans, (w.refreshed id t key).component other = { w.component other with scans } := by
  show ∃ scans, (w.modifyComponent id fun c => { c with scans := c.scans + 1 }).component other = _
  rcases Nat.lt_or_ge id w.components.size with hlt | hge
  · rw [component_modifyComponent hlt]
    split
    · rename_i he
      exact ⟨_, by rw [he]⟩
    · exact ⟨_, rfl⟩
  · rw [modifyComponent_of_size_le hge]
    exact ⟨_, rfl⟩

/-- **A write changes nothing of a component** but the count of its scans. -/
theorem component_written (w : World κ σ) (id : ComponentId) (key : String) (value : Value)
    (other : ComponentId) :
    ∃ scans, (w.written id key value).component other = { w.component other with scans } := by
  unfold written
  cases (w.component id).store.cell? key with
  | none => exact ⟨_, rfl⟩
  | some cell =>
    dsimp only
    unfold renewed
    cases ((w.storeValue cell value).component id).template with
    | none => exact ⟨_, rfl⟩
    | some t =>
      dsimp only
      split
      · exact component_refreshed (w.storeValue cell value) id t key other
      · exact ⟨_, rfl⟩

theorem isAlive_written (w : World κ σ) (id : ComponentId) (key : String) (value : Value)
    (other : ComponentId) : (w.written id key value).isAlive other = w.isAlive other := by
  obtain ⟨_, hcomponent⟩ := component_written w id key value other
  unfold isAlive
  rw [hcomponent]

theorem documents_renewed (w : World κ σ) (id : ComponentId) (key : String) :
    (w.renewed id key).events = w.events ∧ (w.renewed id key).documents.size = w.documents.size := by
  unfold renewed
  cases (w.component id).template with
  | none => exact ⟨rfl, rfl⟩
  | some t =>
    dsimp only
    split
    · exact ⟨rfl, Array.size_setIfInBounds⟩
    · exact ⟨rfl, rfl⟩

/-- A write makes no events and no documents. -/
theorem documents_written (w : World κ σ) (id : ComponentId) (key : String) (value : Value) :
    (w.written id key value).events = w.events ∧
      (w.written id key value).documents.size = w.documents.size := by
  unfold written
  cases (w.component id).store.cell? key with
  | none => exact ⟨rfl, rfl⟩
  | some cell => exact documents_renewed (w.storeValue cell value) id key

/-- **A document after a write** has the links and the listeners that it had. -/
theorem document_renewed (hw : w.Orderly note pending []) (id : ComponentId) (key : String)
    (document : DocumentId) :
    SameLinks (w.document document) ((w.renewed id key).document document) ∧
      SameListeners (w.document document) ((w.renewed id key).document document) := by
  unfold renewed
  cases ht : (w.component id).template with
  | none => exact ⟨.refl _, fun _ => rfl⟩
  | some t =>
    dsimp only
    split
    · by_cases hdocument : document = (w.component id).document
      · subst hdocument
        have hpatched : (w.refreshed id t key).document (w.component id).document =
            (w.patched (w.component id) t key).document :=
          document_setDocument (w := w.modifyComponent id fun c => { c with scans := c.scans + 1 })
            (hw.document_lt id (lt_of_template ht)) _
        obtain ⟨_, hpatches⟩ := (hw.housed id t ht).patches (w.lookup (w.component id).store)
          (w.component id).options.missingKey key (w.component id).options.syncInputs
        rw [hpatched]
        exact ⟨hpatches.links, hpatches.listeners⟩
      · rw [document_refreshed_of_ne hdocument]
        exact ⟨.refl _, fun _ => rfl⟩
    · exact ⟨.refl _, fun _ => rfl⟩

theorem document_written (hw : w.Orderly note pending []) (id : ComponentId) (key : String)
    (value : Value) (document : DocumentId) :
    SameLinks (w.document document) ((w.written id key value).document document) ∧
      SameListeners (w.document document) ((w.written id key value).document document) := by
  unfold written
  cases (w.component id).store.cell? key with
  | none => exact ⟨.refl _, fun _ => rfl⟩
  | some cell => exact document_renewed (hw.storeValue cell value) id key document

theorem Orderly.carried (h : w.Orderly note pending []) (event : EventId) (id : ComponentId)
    (key : String) : (w.carried event id key).Orderly note pending [] := by
  unfold World.carried
  split
  · exact h.written id key _
  · exact h

/-- **A write to a declared key of a living component** touches what depends on the key. -/
theorem touched_written (hw : w.Orderly note pending []) (halive : w.isAlive id = true) {t : Template}
    (ht : (w.component id).template = some t) {cell : CellId}
    (hcell : (w.component id).store.cell? key = some cell) (value : Value) :
    Touched w id t key cell value (w.written id key value) := by
  have hwritten : w.written id key value = (w.storeValue cell value).refreshed id t key := by
    unfold written
    rw [hcell]
    dsimp only
    unfold renewed
    rw [show ((w.storeValue cell value).component id).template = some t from ht]
    exact if_pos halive
  rw [hwritten]
  exact hw.touched ht hcell value _

/-! ## Holding a component while it is written -/

/-- Edits of a component that commute may be made in either order. -/
theorem modifyComponent_comm (w : World κ σ) (id : ComponentId) {f g : Component κ → Component κ}
    (h : ∀ c, f (g c) = g (f c)) :
    (w.modifyComponent id g).modifyComponent id f = (w.modifyComponent id f).modifyComponent id g := by
  have hcomponents : (w.components.modify id g).modify id f = (w.components.modify id f).modify id g := by
    refine Array.ext_getElem? fun i => ?_
    rw [Array.getElem?_modify, Array.getElem?_modify, Array.getElem?_modify, Array.getElem?_modify]
    split
    · cases w.components[i]? with
      | none => rfl
      | some c => exact congrArg some (h c)
    · rfl
  exact congrArg (fun components => { w with components }) hcomponents

theorem component_holdComponent (halive : w.isAlive id = true) : (w.holdComponent id).component id =
    { w.component id with holders := (w.component id).holders + 1 } :=
  component_modifyComponent_self (lt_of_isAlive halive) _

/-- A component may as well be held after the write. -/
theorem written_holdComponent (halive : w.isAlive id = true) (key : String) (value : Value) :
    (w.holdComponent id).written id key value = (w.written id key value).holdComponent id := by
  have hcomponent := component_holdComponent halive
  have hheld : (w.holdComponent id).isAlive id = true :=
    ((Idles.holdComponent halive).isAlive id).trans halive
  unfold written
  rw [hcomponent]
  dsimp only
  cases hcell : (w.component id).store.cell? key with
  | none => rfl
  | some cell =>
    dsimp only
    unfold renewed
    rw [show ((w.holdComponent id).storeValue cell value).component id = _ from hcomponent,
      show ((w.holdComponent id).storeValue cell value).isAlive id = true from hheld,
      show (w.storeValue cell value).isAlive id = true from halive]
    dsimp only
    rw [show (w.storeValue cell value).component id = w.component id from rfl]
    cases (w.component id).template with
    | none => rfl
    | some t =>
      dsimp only
      rw [if_pos rfl, if_pos rfl]
      unfold refreshed
      rw [show ((w.holdComponent id).storeValue cell value).component id = _ from hcomponent]
      have hcomm := (w.storeValue cell value).modifyComponent_comm id
        (f := fun c => { c with scans := c.scans + 1 })
        (g := fun c => { c with holders := c.holders + 1 }) fun _ => rfl
      exact congrArg (World.setDocument · (w.component id).document
        ((w.storeValue cell value).patched (w.component id) t key).document) hcomm

end World

namespace Run

variable {α : Type} {handle : Handle κ σ} {note : σ → Prop} {pending : SubscriberId → Nat}
  {w v v' : World κ σ} {id : ComponentId} {key : String}

/-- A computation that writes nothing and does not fault. -/
theorem Idle.steady {m : Run κ σ α} (h : Idle False m) (base : World κ σ) :
    Triple base.Idles m (fun _ => base.Idles) fun _ => False :=
  (h base).weaken (fun _ h => h) (fun _ _ h => h) fun _ h => h.1

/-! ## Rounds -/

/-- A round in which no turn writes. -/
theorem notify_idle {turn : SubscriberId → Run κ σ Unit} {round : List SubscriberId}
    (hturn : ∀ s ∈ round, Triple v.Idles (turn s) (fun _ => v.Idles) fun _ => False) :
    Triple v.Idles (notify turn round) (fun _ => v.Idles) fun _ => False := by
  induction round with
  | nil => exact Triple.pure fun _ h => h
  | cons s round ih =>
    obtain ⟨hfirst, hrest⟩ := List.forall_mem_cons.mp hturn
    unfold notify
    refine Triple.bind (Triple.tryCatch hfirst fun _ _ h => h.elim) fun _ => ?_
    exact Triple.bind (Q := fun _ => v.Idles)
      (Triple.modify fun w h => h.trans (Idles.modifyHolders w s _)) fun _ => ih hrest

/-- **A round in which one turn makes a difference** and no other writes. -/
theorem notify_once {turn : SubscriberId → Run κ σ Unit} {round : List SubscriberId}
    (hnodup : round.Nodup) {watcher : SubscriberId} (hwatcher : watcher ∈ round)
    (hturn : Triple v.Idles (turn watcher) (fun _ => v'.Idles) fun _ => False)
    (hbefore : ∀ s ∈ round, s ≠ watcher → Triple v.Idles (turn s) (fun _ => v.Idles) fun _ => False)
    (hafter : ∀ s ∈ round, s ≠ watcher →
      Triple v'.Idles (turn s) (fun _ => v'.Idles) fun _ => False) :
    Triple v.Idles (notify turn round) (fun _ => v'.Idles) fun _ => False := by
  induction round with
  | nil => cases hwatcher
  | cons s round ih =>
    obtain ⟨hfresh, hnodup⟩ := List.nodup_cons.mp hnodup
    obtain ⟨hfirst, hbefore⟩ := List.forall_mem_cons.mp hbefore
    have hrest := (List.forall_mem_cons.mp hafter).2
    unfold notify
    by_cases hs : s = watcher
    · subst hs
      refine Triple.bind (Triple.tryCatch hturn fun _ _ h => h.elim) fun _ => ?_
      refine Triple.bind (Q := fun _ => v'.Idles)
        (Triple.modify fun w h => h.trans (Idles.modifyHolders w s _)) fun _ => ?_
      exact notify_idle fun r hr => hrest r hr fun he => hfresh (he ▸ hr)
    · refine Triple.bind (Triple.tryCatch (hfirst hs) fun _ _ h => h.elim) fun _ => ?_
      refine Triple.bind (Q := fun _ => v.Idles)
        (Triple.modify fun w h => h.trans (Idles.modifyHolders w s _)) fun _ => ?_
      exact ih hnodup ((List.mem_cons.mp hwatcher).resolve_left fun he => hs he.symm) hbefore hrest

section

variable (hhandle : ∀ run value, Idle False (handle run (.write value)))

include hhandle

/-- The turn of a subscriber of user code. -/
theorem react_handler {s : SubscriberId} {run : κ} (hs : v.reaction? s = some (.handler run))
    (value : Value) : Triple v.Idles (react handle s value) (fun _ => v.Idles) fun _ => False := by
  refine Triple.get_bind fun w h => ?_
  rw [show (w.subscribers[s]?).map Subscriber.reaction = _ from h.reactions s _ hs]
  exact (Idle.steady (hhandle run value) v).at_world h

omit hhandle in
/-- Bringing a living component up to date. -/
theorem refresh_renewed (halive : w.isAlive id = true) (hhoused : ∀ t,
      (w.component id).template = some t → t.Housed (w.document (w.component id).document)) :
    Triple (· = w) (refresh id key) (fun _ => (w.renewed id key).Idles) fun _ => False := by
  unfold World.renewed
  cases ht : (w.component id).template with
  | none =>
    refine Triple.get_bind fun w' he => ?_
    subst he
    dsimp only
    rw [ht]
    exact Triple.pure fun _ he => he ▸ Idles.refl w'
  | some t =>
    dsimp only
    rw [if_pos halive]
    refine (refresh_eq ht ((hhoused t ht).patches _ _ _ _).1).weaken (fun _ h => h) ?_ fun _ h => h
    rintro _ _ ⟨traces, rfl⟩
    exact Idles.withTraces _ traces

omit hhandle in
/-- **The turn of a watcher** brings the component up to date. -/
theorem react_patch (hv : v.Orderly note pending []) {s : SubscriberId}
    (hs : v.reaction? s = some (.patch id key)) (value : Value) :
    Triple v.Idles (react handle s value) (fun _ => (v.renewed id key).Idles) fun _ => False := by
  refine Triple.get_bind fun w h => ?_
  rw [show (w.subscribers[s]?).map Subscriber.reaction = _ from h.reactions s _ hs]
  refine Triple.get_bind fun w' he => ?_
  subst he
  have hrenewed := h.renewed hv id key
  by_cases halive : w'.isAlive id = true
  · rw [if_pos halive]
    have hhoused : ∀ t, (w'.component id).template = some t →
        t.Housed (w'.document (w'.component id).document) := by
      intro t ht
      rw [h.template] at ht
      obtain ⟨_, hcomponent⟩ := h.component id
      rw [hcomponent, h.document _ (hv.document_lt id (World.lt_of_template ht))]
      exact hv.housed id t ht
    exact (refresh_renewed halive hhoused).discard fun _ _ h' => hrenewed.trans h'
  · rw [if_neg halive]
    rw [World.renewed_of_not_isAlive halive] at hrenewed
    exact Triple.pure fun _ he => he ▸ hrenewed

/-- **The round of a key** brings the component up to date once, if it is alive. -/
theorem notify_renewed (hv : v.Orderly note pending []) {cell : CellId}
    (hcell : (v.component id).store.cell? key = some cell) (value : Value) :
    Triple v.Idles (notify (react handle · value) (v.cell cell).subscribers)
      (fun _ => (v.renewed id key).Idles) fun _ => False := by
  -- in the round are subscribers of user code, and those that patch for this key
  have hround : ∀ s ∈ (v.cell cell).subscribers,
      (∃ run, v.reaction? s = some (.handler run)) ∨ v.reaction? s = some (.patch id key) := by
    intro s hs
    obtain ⟨reaction, hreaction⟩ := Option.isSome_iff_exists.mp (hv.there cell s hs)
    cases reaction with
    | handler run => exact .inl ⟨run, hreaction⟩
    | patch other key' =>
      obtain ⟨rfl, rfl⟩ := hv.separate id key other key' cell hcell
        (hv.tuned cell s hs other key' hreaction)
      exact .inr hreaction
  by_cases halive : v.isAlive id = true
  · obtain ⟨watcher, hwatcher, hpatch⟩ := hv.watched id key cell halive hcell List.not_mem_nil
    have hothers : ∀ s ∈ (v.cell cell).subscribers, s ≠ watcher →
        ∃ run, v.reaction? s = some (.handler run) := fun s hs hne =>
      (hround s hs).resolve_right fun hs => hne (hv.single watcher s id key hpatch hs)
    refine notify_once (hv.nodup cell) hwatcher (react_patch hv hpatch value) ?_ ?_
    · intro s hs hne
      obtain ⟨run, hrun⟩ := hothers s hs hne
      exact react_handler hhandle hrun value
    · intro s hs hne
      obtain ⟨run, hrun⟩ := hothers s hs hne
      exact react_handler hhandle ((World.reaction?_renewed v id key s).trans hrun) value
  · rw [World.renewed_of_not_isAlive halive]
    refine notify_idle fun s hs => ?_
    rcases hround s hs with ⟨run, hrun⟩ | hpatch
    · exact react_handler hhandle hrun value
    · have hrenewed := World.renewed_of_not_isAlive halive key
      refine (react_patch hv hpatch value).weaken (fun _ h => h) (fun _ _ h => ?_) fun _ h => h
      exact hrenewed ▸ h

/-! ## Writes -/

/-- **A write that nobody answers with another** stores the value and brings the component up to date. -/
theorem write_written (hw : w.Orderly note pending []) (id : ComponentId) (key : String)
    (value : Value) :
    Triple (· = w) (write handle id key value) (fun _ => (w.written id key value).Idles)
      fun _ => False := by
  refine Triple.get_bind fun w' he => ?_
  subst he
  unfold setKey World.written
  cases hcell : (w'.component id).store.cell? key with
  | none => exact Triple.pure fun _ he => he ▸ Idles.refl w'
  | some cell =>
    dsimp only
    have hstored := hw.storeValue cell value
    have hlt := hw.cell_lt id key cell hcell
    refine Triple.bind (Q := fun _ => ((w'.storeValue cell value).renewed id key).Idles) ?_ fun _ =>
      Triple.pure fun _ h => h
    refine Triple.bind (Q := fun _ w => w = w'.storeValue cell value)
      (Triple.modify fun _ he => congrArg (World.storeValue · cell value) he) fun _ => ?_
    refine Triple.get_bind fun w he => ?_
    subst he
    dsimp only
    refine Triple.bind (Q := fun _ => (w'.storeValue cell value).Idles) (Triple.modify ?_) fun _ =>
      notify_renewed hhandle hstored hcell value
    rintro _ rfl
    exact Idles.holdSubscribers _ _

/-! ## The listener that carries edits -/

/-- Carrying the live value of a target that is there. -/
theorem runModel_written (hw : w.Orderly note pending []) (halive : w.isAlive id = true)
    {event : EventId}
    (hthere : (w.event event).target < (w.document (w.component id).document).size) (key : String) :
    Triple (· = w.holdComponent id) (runModel handle id key event)
      (fun _ => ((w.written id key (.str ((w.document (w.component id).document).liveText
        (w.event event).target))).holdComponent id).Idles) fun _ => False := by
  refine Triple.get_bind fun w₁ he => ?_
  have hdocument : (w₁.component id).document = (w.component id).document := by
    rw [he, World.component_holdComponent halive]
  refine Triple.bind (Q := fun value w' => value.getD "" = (w.document
      (w.component id).document).liveText (w.event event).target ∧ w' = w.holdComponent id)
    (readDocument_spec ?_) fun value => ?_
  · rintro _ rfl
    subst he
    rw [hdocument]
    exact ⟨_, Document.value_eq_ok hthere, rfl, rfl⟩
  · refine Triple.assuming (fun _ h => h.1) fun hvalue => ?_
    rw [hvalue]
    have hwrite := write_written hhandle (hw.holdComponent halive) id key
      (.str ((w.document (w.component id).document).liveText (w.event event).target))
    rw [World.written_holdComponent halive] at hwrite
    refine Triple.bind (hwrite.pre fun _ h => h.2) fun result => ?_
    cases result with
    | ok _ => exact Triple.pure fun _ h => h
    | error e => exact Triple.modify fun w h => h.trans (Idles.tell w _)

omit hhandle in
/-- There is nothing to carry where the target is no node of the component's document. -/
theorem runModel_fails (halive : w.isAlive id = true) {event : EventId}
    (hmissing : ¬ (w.event event).target < (w.document (w.component id).document).size)
    (key : String) :
    Triple (· = w.holdComponent id) (runModel handle id key event) (fun _ _ => False)
      fun w' => w' = w.holdComponent id := by
  refine Triple.get_bind fun w₁ he => ?_
  subst he
  have hvalue : ((w.holdComponent id).document (w.component id).document).value
      (w.event event).target = .error _ :=
    congrArg (Except.map _) ((w.document (w.component id).document).node_eq_error_iff.mpr
      ⟨Nat.le_of_not_lt hmissing, rfl⟩)
  refine Triple.bind (Q := fun _ _ => False) ?_ fun _ _ h => h.elim
  rintro _ rfl
  rw [World.component_holdComponent halive]
  have hread := readDocument_error (·.value (w.event event).target) hvalue
  exact hread ▸ rfl

/-- **A listener that carries an edit to a key**. It fails where the target is no node of the component's
document, and then it does nothing. -/
theorem runAction_model (hw : w.Orderly note pending []) (event : EventId) (id : ComponentId)
    (key : String) :
    Triple (· = w) (runAction handle event (.model id key)) (fun _ => (w.carried event id key).Idles)
      fun w' => ¬ (w.event event).target < (w.document (w.component id).document).size ∧
        w.Idles w' := by
  refine Triple.get_bind fun w' he => ?_
  subst he
  unfold World.carried
  by_cases halive : w'.isAlive id = true
  · rw [if_pos halive, if_pos halive]
    refine holding_idles halive ((World.isAlive_written _ _ _ _ _).trans halive) ?_
    by_cases hthere : (w'.event event).target < (w'.document (w'.component id).document).size
    · exact (runModel_written hhandle hw halive hthere key).weaken (fun _ h => h) (fun _ _ h => h)
        fun _ h => h.elim
    · exact (runModel_fails halive hthere key).weaken (fun _ h => h) (fun _ _ h => h.elim)
        fun _ h => ⟨hthere, h ▸ Idles.refl _⟩
  · rw [if_neg halive, if_neg halive]
    exact Triple.pure fun _ he => he ▸ Idles.refl w'

end

/-! ## Events -/

/-- **Handlers that write nothing**, come to their end and keep the world orderly; hooks may do
anything. -/
structure Mute (note : σ → Prop) (handle : Handle κ σ) : Prop where
  upholds : ∀ run occasion, Upholds note (handle run occasion)
  idle : ∀ run occasion, (∀ id, occasion ≠ .hook id) → Idle False (handle run occasion)

theorem Mute.idle_write (hmute : Mute note handle) (run : κ) (value : Value) :
    Idle False (handle run (.write value)) :=
  hmute.idle run (.write value) fun _ he => by cases he

/-- **A computation that makes this difference** and no other, in an orderly world. -/
def Leads (note : σ → Prop) (base v : World κ σ) (m : Run κ σ α) : Prop :=
  ∀ pending, Triple (fun w => w.Orderly note pending [] ∧ base.Idles w) m
    (fun _ w => w.Orderly note pending [] ∧ v.Idles w) fun _ => False

namespace Leads

variable {β : Type} {base v : World κ σ} {m : Run κ σ α}

theorem bind {u : World κ σ} {f : α → Run κ σ β} (hm : Leads note base v m)
    (hf : ∀ a, Leads note v u (f a)) : Leads note base u (m >>= f) :=
  fun pending => Triple.bind (hm pending) fun a => hf a pending

/-- What writes nothing makes no difference. -/
theorem of_idle (hupholds : Upholds note m) (hidle : Idle False m) : Leads note base base m :=
  fun pending => ((hupholds pending).and (hidle.steady base)).weaken (fun _ h => h) (fun _ _ h => h)
    fun _ h => h.2

/-- What is known of a computation from each world that it may run in. -/
theorem of_effect (hupholds : Upholds note m) (heffect : ∀ w pending, w.Orderly note pending [] →
      base.Idles w → Triple (· = w) m (fun _ => v.Idles) fun _ => False) : Leads note base v m := by
  intro pending w hw
  have hrun := ((hupholds pending).and (heffect w pending hw.1 hw.2)) w ⟨hw.1, rfl⟩
  exact hrun.weaken (fun _ _ h => h) fun _ h => h.2

/-- A read that succeeds. -/
theorem readDocument {document : DocumentId} (hdocument : document < base.documents.size)
    {read : Document (Action κ) → Except Dom.Fault α} {a : α}
    (hread : read (base.document document) = .ok a) :
    Leads note base base (readDocument document read) := by
  refine of_effect (upholds_readDocument _ _) fun w _ _ h => readDocument_spec ?_
  rintro _ rfl
  exact ⟨a, h.document document hdocument ▸ hread, h⟩

theorem discard (hm : Leads note base v m) : Leads note base v (Functor.discard m) :=
  fun pending => (hm pending).discard fun _ _ h => h

/-- The rest runs from a world that is known. -/
theorem get_bind {f : World κ σ → Run κ σ β} (h : ∀ w, base.Idles w → Leads note base v (f w)) :
    Leads note base v ((MonadState.get : Run κ σ (World κ σ)) >>= f) :=
  fun pending => Triple.get_bind fun w hw => (h w hw.2 pending).at_world hw

end Leads

section

variable (hmute : Mute note handle) {base : World κ σ} {event : EventId} {e : Event}
  (hevent : base.events[event]? = some e)

include hmute hevent

/-- **Listeners one of which carries the edit to a key** make just this difference. -/
theorem runActions_model (hbase : base.Orderly note pending [])
    (halive : base.isAlive id = true)
    (hthere : e.target < (base.document (base.component id).document).size) {first last : List (Action κ)}
    (hothers : ∀ action ∈ first ++ last, ∀ id key, action ≠ .model id key) :
    Leads note base (base.carried event id key)
      (runActions handle event (first ++ .model id key :: last)) := by
  induction first with
  | nil =>
    refine Leads.bind (Leads.of_effect (upholds_runAction hmute.upholds event _) ?_) fun _ =>
      .of_idle (upholds_runActions hmute.upholds event last)
        (idle_runActions hmute.idle event hothers)
    intro w pending hw h
    refine (runAction_model hmute.idle_write hw event id key).weaken (fun _ h => h)
      (fun _ _ h' => (h.carried hbase hevent id key).trans h') ?_
    rintro _ ⟨hmissing, _⟩
    rw [h.event_target hevent, h.document_eq, h.document _ (hbase.document_lt id
      (World.lt_of_isAlive halive)), World.event_of_getElem? hevent] at hmissing
    exact hmissing hthere
  | cons action first ih =>
    obtain ⟨haction, hothers⟩ := List.forall_mem_cons.mp hothers
    exact Leads.bind (.of_idle (upholds_runAction hmute.upholds event action)
      (idle_runAction hmute.idle event haction)) fun _ => ih hothers

omit hmute in
/-- One node on the path of an event, and then the others. -/
theorem visit_cons {document : DocumentId} (hdocument : document < base.documents.size)
    {node : NodeId} (hnode : node < (base.document document).size) {path : List NodeId}
    {v : World κ σ}
    (hactions : Leads note base v (runActions handle event
      (((base.document document).listenersFor node e.type).map (·.action))))
    (hrest : Leads note v v (visit handle document event path)) :
    Leads note base v (visit handle document event (node :: path)) := by
  obtain ⟨n, hn⟩ := (base.document document).exists_node hnode
  have hread : (base.document document).node node = .ok n :=
    (base.document document).node_eq_ok_iff.mpr hn
  refine Leads.bind (Leads.readDocument hdocument hread).discard fun _ => ?_
  refine Leads.get_bind fun w h => ?_
  obtain ⟨e', hevent', htype, _⟩ := h.events event e hevent
  rw [h.document document hdocument, World.event_of_getElem? hevent', htype]
  refine Leads.bind (.of_idle (.modify fun _ _ h => h.modifyEvent event _) (.modify fun w => ?_))
    fun _ => ?_
  · exact Idles.modifyEvent w event fun _ => ⟨rfl, rfl⟩
  refine Leads.bind hactions fun _ => Leads.get_bind fun w' h' => ?_
  split
  · exact .of_idle (.pure _) (.pure _)
  · exact Leads.bind hrest fun _ => .of_idle (.pure _) (.pure _)

/-- **A path on which no listener carries edits.** -/
theorem visit_idle {document : DocumentId} (hdocument : document < base.documents.size)
    {path : List NodeId} (hpath : ∀ node ∈ path, node < (base.document document).size)
    (hsilent : ∀ node ∈ path, ∀ listener ∈ (base.document document).listenersFor node e.type,
      ∀ id key, listener.action ≠ .model id key) :
    Leads note base base (visit handle document event path) := by
  induction path with
  | nil => exact .of_idle (.pure _) (.pure _)
  | cons node path ih =>
    obtain ⟨hnode, hpath⟩ := List.forall_mem_cons.mp hpath
    obtain ⟨hlisteners, hsilent⟩ := List.forall_mem_cons.mp hsilent
    refine visit_cons hevent hdocument hnode ?_ (ih hpath hsilent)
    refine .of_idle (upholds_runActions hmute.upholds event _)
      (idle_runActions hmute.idle event fun action haction => ?_)
    obtain ⟨listener, hlistener, rfl⟩ := List.mem_map.mp haction
    exact hlisteners listener hlistener

end

section

variable (hmute : Mute note handle) (halive : w.isAlive id = true) {document : DocumentId}
  (hdocument : (w.component id).document = document) {node : NodeId} {first last : List (Action κ)}

include hmute halive hdocument

/-- **An input event at a node that carries edits to one key**, where no node above carries any. -/
theorem fire_written (hw : w.Orderly note pending []) (hnode : node < (w.document document).size)
    (habove : ∀ n ∈ (w.document document).ancestors node, n < (w.document document).size)
    (hlisteners : ((w.document document).listenersFor node "input").map (·.action) =
      first ++ .model id key :: last)
    (hothers : ∀ action ∈ first ++ last, ∀ id key, action ≠ .model id key)
    (hsilent : ∀ n ∈ (w.document document).ancestors node,
      ∀ listener ∈ (w.document document).listenersFor n "input",
        ∀ id key, listener.action ≠ .model id key) :
    Triple (· = w) (fire handle document (.fresh "input" node true))
      (fun _ => (w.written id key (.str ((w.document document).liveText node))).Idles)
      fun _ => False := by
  have hlt : document < w.documents.size := hdocument ▸ hw.document_lt id (World.lt_of_isAlive halive)
  -- the world in which the event sets out
  obtain ⟨v, hv⟩ : ∃ v, v = (w.addEvent (.fresh "input" node true)).tell [.dispatching "input" node] :=
    ⟨_, rfl⟩
  have hidles : w.Idles v := by
    rw [hv]
    exact (Idles.addEvent w _).trans (Idles.tell _ _)
  have horderly : v.Orderly note pending [] := by
    rw [hv]
    exact (hw.addEvent _).tell _
  have hevent : v.events[w.events.size]? = some (.fresh "input" node true) := by
    rw [hv]
    exact Array.getElem?_push_size
  have hsame : v.document document = w.document document := hidles.document document hlt
  have hwritten : v.carried w.events.size id key =
      v.written id key (.str ((w.document document).liveText node)) := by
    unfold World.carried
    rw [hidles.isAlive, if_pos halive, hidles.document_eq, hdocument, hsame,
      World.event_of_getElem? hevent]
    rfl
  have hvisit : Leads note v (v.carried w.events.size id key)
      (visit handle document w.events.size (node :: (w.document document).ancestors node)) := by
    refine visit_cons hevent (Nat.lt_of_lt_of_le hlt hidles.documents) (hsame ▸ hnode) ?_ ?_
    · rw [hsame, show (Event.fresh "input" node true).type = "input" from rfl, hlisteners]
      refine runActions_model hmute hevent horderly ((hidles.isAlive id).trans halive) ?_ hothers
      rw [hidles.document_eq, hdocument, hsame]
      exact hnode
    · obtain ⟨hevents, hsize⟩ := v.documents_written id key
        (.str ((w.document document).liveText node))
      obtain ⟨hlinks, hlisteners⟩ := World.document_written horderly id key
        (.str ((w.document document).liveText node)) document
      rw [hsame] at hlinks hlisteners
      rw [hwritten]
      refine visit_idle hmute (hevents ▸ hevent)
        (hsize ▸ Nat.lt_of_lt_of_le hlt hidles.documents) (fun n hn => ?_) fun n hn => ?_
      · rw [hlinks.size]
        exact habove n hn
      · rw [show (Event.fresh "input" node true).type = "input" from rfl, hlisteners.listenersFor]
        exact hsilent n hn
  rw [hwritten] at hvisit
  refine fire_steps fun w' he => ?_
  subst he
  rw [show w'.path document (.fresh "input" node true) =
    node :: (w'.document document).ancestors node from rfl]
  have hrun := (hvisit pending).at_world ⟨horderly, Idles.refl v⟩
  rw [hv] at hrun
  refine hrun.weaken (fun _ h => h) (fun _ w'' h => ?_) fun _ h => h
  have hresult := (hidles.written hw id key _).trans (hv ▸ h.2)
  exact hresult.trans (Idles.modifyEvent w'' _ fun _ => ⟨rfl, rfl⟩)

/-- **An edit of such a node**: the live value is assigned, and then it is written. -/
theorem edit_written (hw : w.Orderly note pending []) {text : String} {changed : Bool}
    {d : Document (Action κ)} (hset : (w.document document).setValue node text = .ok (changed, d))
    (hnode : node < (w.document document).size)
    (habove : ∀ n ∈ (w.document document).ancestors node, n < (w.document document).size)
    (hlisteners : ((w.document document).listenersFor node "input").map (·.action) =
      first ++ .model id key :: last)
    (hothers : ∀ action ∈ first ++ last, ∀ id key, action ≠ .model id key)
    (hsilent : ∀ n ∈ (w.document document).ancestors node,
      ∀ listener ∈ (w.document document).listenersFor n "input",
        ∀ id key, listener.action ≠ .model id key) :
    Triple (· = w) (edit handle document node text)
      (fun _ => ((w.setDocument document d).written id key (.str (d.liveText node))).Idles)
      fun _ => False := by
  have hlt : document < w.documents.size := hdocument ▸ hw.document_lt id (World.lt_of_isAlive halive)
  obtain ⟨_, _, hset', hrevises⟩ := Document.setValue_spec hnode text
  cases hset.symm.trans hset'
  have hdoc : (w.setDocument document d).document document = d := World.document_setDocument hlt d
  have hancestors := Document.ancestors_of_sameLinks hrevises.links node
  have hassigned : (w.setDocument document d).Orderly note pending [] := hw.setDocument (.setValue hset)
  have halive' : (w.setDocument document d).isAlive id = true := halive
  have hlive : d.liveText node = ((w.setDocument document d).document document).liveText node := by
    rw [hdoc]
  rw [hlive]
  refine Triple.bind (Q := fun _ w' => w' = w.setDocument document d)
    (Triple.discard (editDocument_spec (Q := fun _ w' => w' = w.setDocument document d) ?_)
      fun _ _ h => h) fun _ => ?_
  · rintro _ rfl
    rw [hset]
  refine Triple.bind (fire_written hmute halive' hdocument hassigned ?_ ?_ ?_ hothers ?_) fun _ =>
    Triple.pure fun _ h => h
  · rw [hdoc, hrevises.links.size]
    exact hnode
  · rw [hdoc, hancestors, hrevises.links.size]
    exact habove
  · rw [hdoc, hrevises.listeners.listenersFor]
    exact hlisteners
  · intro n hn listener hlistener
    rw [hdoc, hancestors] at hn
    rw [hdoc, hrevises.listeners.listenersFor] at hlistener
    exact hsilent n hn listener hlistener

end

end Run

end BoundView
