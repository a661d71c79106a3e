import BoundView.Proofs.Component.Noting
import BoundView.Proofs.Component.Outcome
import BoundView.Proofs.Component.Presenting

/-!
# Scans are counted, and a second one changes nothing

A scan for a key visits the rendered parts that depend on the key and changes those of them that are stale.
Then nothing is stale, so that another scan visits the same and changes nothing; and neither does the scan
that is part of a write, if the key is given the value that it has. What the other subscribers of the key do
after the scan is up to them.

A component counts the scans since its template was compiled. From then on the count grows with the writes
that its cells accept and with the scans that user code asks for, wherever the requests come from. As long
as texts and live values are left to components, nothing is stale but what a person is editing.

The runs of which this is said are those of user code that notes its requests; `left_noting` ties them to
the runs of the same user code without notes.

Main statement: `scans_add_up`.
-/

namespace BoundView

open BoundView.Dom (Document NodeId)

variable {κ σ : Type}

namespace World

/-! ## One scan -/

section

variable {w : World κ σ} {id : ComponentId} {t : Template} {key : String}
  (ht : (w.component id).template = some t)

include ht

/-- A scan of what was compiled. -/
theorem scanned_eq : w.scanned id key = (((w.refreshed id t key).tell [.updating key]).tell
    (w.patched (w.component id) t key).traces).tell
      [.updated (w.patched (w.component id) t key).stats.visited
        (w.patched (w.component id) t key).stats.changed] := by
  unfold World.scanned
  rw [ht]

theorem component_scanned : (w.scanned id key).component id =
    { w.component id with scans := (w.component id).scans + 1 } := by
  rw [scanned_eq ht]
  exact component_modifyComponent_self (lt_of_template ht) _

theorem cells_scanned : (w.scanned id key).cells = w.cells := by
  rw [scanned_eq ht]
  rfl

theorem document_scanned (hdocument : (w.component id).document < w.documents.size) :
    (w.scanned id key).document (w.component id).document =
      (w.patched (w.component id) t key).document := by
  rw [scanned_eq ht]
  exact document_setDocument (w := w.modifyComponent id _) hdocument _

/-- **A scan that finds nothing stale** leaves all documents alone. -/
theorem documents_scanned (hidle : (w.patched (w.component id) t key).document =
    w.document (w.component id).document) : (w.scanned id key).documents = w.documents := by
  have hsame : (w.setDocument (w.component id).document
      (w.document (w.component id).document)).documents = w.documents := by
    refine Array.ext_getElem? fun i => ?_
    show (w.documents.setIfInBounds _ _)[i]? = _
    rw [Array.getElem?_setIfInBounds]
    split
    · rename_i hi
      subst hi
      split
      · rename_i hlt
        unfold World.document
        rw [Array.getD_eq_getD_getElem?, Array.getElem?_eq_getElem hlt]
        rfl
      · rename_i hge
        exact (Array.getElem?_eq_none (Nat.le_of_not_lt hge)).symm
    · rfl
  rw [scanned_eq ht]
  show (w.setDocument (w.component id).document
    (w.patched (w.component id) t key).document).documents = _
  rw [hidle, hsame]

theorem back?_traces_scanned : (w.scanned id key).traces.back? =
    some (.updated (w.scanStats id key).visited (w.scanStats id key).changed) := by
  have hstats : w.scanStats id key = (w.patched (w.component id) t key).stats := by
    unfold World.scanStats
    rw [ht]
  have hlast : ∀ (v : World κ σ) (trace : Trace), (v.tell [trace]).traces.back? = some trace := by
    intro v trace
    simp [World.tell]
  rw [hstats, scanned_eq ht]
  exact hlast _ _

end

end World

/-! ## Nothing is stale -/

/-- **What a scan has to visit**: the rendered parts that depend on a key, of those that count. -/
def World.dependents (w : World κ σ) (id : ComponentId) (t : Template) (key : String)
    (counts : Part → Bool) : Nat :=
  t.dependents key (w.component id).options.syncInputs counts

/-- Whether a part is stale in a world. -/
def World.isStale (w : World κ σ) (id : ComponentId) (p : Part) : Bool :=
  p.isStale (w.document (w.component id).document) (w.lookup (w.component id).store)
    (w.component id).options.missingKey

/-- **A write scans first**: what is left to be done in the world after the scan is the turns of handlers
that hear the key. -/
structure World.WriteScans (w : World κ σ) (handle : Handle κ σ) (id : ComponentId) (key : String)
    (value : Value) (w' : World κ σ) (others : List SubscriberId) : Prop where
  run : Run.write handle id key value w = (do
    Run.notify (Run.react handle · value) others
    pure (.ok ()) : Run κ σ (Except Component.Error Unit)) w'
  others : ∀ s ∈ others, w.isLive s = true ∧ (∃ run, w.reaction? s = some (.handler run)) ∧
    ∃ cell, (w.component id).store.cell? key = some cell ∧ s ∈ (w.cell cell).subscribers

/-- **Nothing is stale** that depends on a key: a scan visits so many and changes nothing, and neither does a
write of the value that the key has, until handlers hear of it. -/
structure World.Still (w : World κ σ) (handle : Handle κ σ) (id : ComponentId) (key : String)
    (visited : Nat) : Prop where
  scan : ∃ w', Run.refresh id key w = .ok ⟨visited, 0⟩ w' ∧ w'.documents = w.documents
  write : w.isAlive id = true → ∀ value, w.value? (w.component id).store key = some value →
    ∃ w' others, w.WriteScans handle id key value w' others ∧ w'.documents = w.documents ∧
      w'.traces.back? = some (.updated visited 0)

/-- **Scans are right** in a world: each visits what depends on its key, changes what is stale, and leaves
nothing that is. So does the scan of each write to a declared key, once the value is stored. -/
structure World.ScansRight (w : World κ σ) (handle : Handle κ σ) (id : ComponentId) (t : Template) :
    Prop where
  scan : ∀ key, ∃ w', Run.refresh id key w =
      .ok ⟨w.dependents id t key fun _ => true, w.dependents id t key (w.isStale id)⟩ w' ∧
    w'.Still handle id key (w.dependents id t key fun _ => true)
  write : w.isAlive id = true → ∀ key value cell, (w.component id).store.cell? key = some cell →
    ∃ w' others, w.WriteScans handle id key value w' others ∧
      w'.traces.back? = some (.updated (w.dependents id t key fun _ => true)
        (w.dependents id t key ((w.storeValue cell value).isStale id))) ∧
      w'.Still handle id key (w.dependents id t key fun _ => true)

section

variable {note : σ → Prop} {pending : SubscriberId → Nat} {w : World κ σ} {id : ComponentId}
  {t : Template} {key : String}

/-- What a scan counts. -/
theorem World.Orderly.scanStats_eq (hw : w.Orderly note pending [])
    (ht : (w.component id).template = some t) (key : String) : w.scanStats id key =
      ⟨w.dependents id t key fun _ => true, w.dependents id t key (w.isStale id)⟩ := by
  unfold World.scanStats
  rw [ht]
  exact (hw.housed id t ht).stats_patch _ _ key _

/-- Whatever is held is not stale. -/
theorem World.Orderly.dependents_eq_zero (hw : w.Orderly note pending [])
    (ht : (w.component id).template = some t)
    (hheld : ∀ b ∈ t.affected key (w.component id).options.syncInputs,
      ((w.document (w.component id).document).content b.node).held? =
        some (b.derived (w.lookup (w.component id).store) (w.component id).options.missingKey)) :
    w.dependents id t key (w.isStale id) = 0 := by
  have hhoused := hw.housed id t ht
  have hcounted : (w.patched (w.component id) t key).stats = _ :=
    stats_patch (fun b hb => hhoused.seats hb) (hhoused.nodup_affected key _)
  rw [show (w.patched (w.component id) t key).stats = _ from hhoused.stats_patch _ _ key _] at hcounted
  refine (congrArg PatchStats.changed hcounted).trans (List.countP_eq_zero.mpr fun b hb => ?_)
  rw [hheld b hb]
  simp

/-- **What was scanned is held.** -/
theorem World.Orderly.held?_scanned (hw : w.Orderly note pending [])
    (ht : (w.component id).template = some t) {b : Affected}
    (hb : b ∈ t.affected key (w.component id).options.syncInputs) :
    (((w.scanned id key).document (w.component id).document).content b.node).held? =
      some (b.derived (w.lookup (w.component id).store) (w.component id).options.missingKey) := by
  rw [World.document_scanned ht (hw.document_lt id (World.lt_of_template ht))]
  exact (hw.housed id t ht).held?_patch _ _ hb

/-- **The watcher of a key comes first** at its cell. -/
def World.Led (w : World κ σ) (id : ComponentId) (key : String) : Prop :=
  ∀ cell, (w.component id).store.cell? key = some cell →
    ∃ s rest, (w.cell cell).subscribers = s :: rest ∧ w.reaction? s = some (.patch id key)

/-- **A write to a declared key** of a living component scans first. -/
theorem World.Orderly.writeScans (hw : w.Orderly note pending [])
    (ht : (w.component id).template = some t) (halive : w.isAlive id = true) {cell : CellId}
    (hcell : (w.component id).store.cell? key = some cell) (hled : w.Led id key)
    (value : Value) (handle : Handle κ σ) :
    ∃ subscribers v others, v = { (w.storeValue cell value).scanned id key with subscribers } ∧
      (∃ pending', v.Orderly note pending' []) ∧ v.Led id key ∧
        w.WriteScans handle id key value v others := by
  obtain ⟨s, others, hsubscribers, hs⟩ := hled cell hcell
  have hlt := hw.cell_lt id key cell hcell
  obtain ⟨subscribers, v, hv, hreaction, horderly, hset⟩ :=
    Run.set_eq hw halive hlt hsubscribers hs value handle
  refine ⟨subscribers, v, others.filter w.isLive, hv, ⟨_, horderly⟩, fun cell' hcell' => ?_, ?_,
    fun r hr => ?_⟩
  · have hcomponent : v.component id =
        { w.component id with scans := (w.component id).scans + 1 } := by
      rw [hv]
      exact World.component_scanned (w := w.storeValue cell value) ht
    have hheard : (v.cell cell).subscribers = s :: others.filter w.isLive := by
      have hlive : w.isLive s = true :=
        decide_eq_true (Nat.lt_of_le_of_lt (Nat.zero_le _) (hw.held s id key halive hs))
      have hcells : v.cells = (w.storeValue cell value).cells := by
        rw [hv]
        exact World.cells_scanned (w := w.storeValue cell value) ht
      unfold World.cell
      rw [hcells]
      show ((w.storeValue cell value).cell cell).subscribers = _
      rw [World.cell_storeValue hlt, if_pos rfl, hsubscribers, List.filter_cons_of_pos hlive]
    rw [hcomponent] at hcell'
    obtain rfl := Option.some.inj (hcell.symm.trans hcell')
    exact ⟨s, _, hheard, (hreaction s).trans hs⟩
  · show Run.setKey handle (w.component id).store key value w = _
    unfold Run.setKey
    rw [hcell]
    show EStateM.bind (Run.set handle cell value) _ w = EStateM.bind _ _ v
    unfold EStateM.bind
    rw [hset]
  · obtain ⟨hmem, hlive⟩ := List.mem_filter.mp hr
    exact ⟨hlive, hw.handler_of_mem hsubscribers hs hmem, cell, hcell,
      hsubscribers ▸ List.mem_cons_of_mem s hmem⟩

/-- **Where everything is held, nothing is stale.** -/
theorem World.Still.of_held (hw : w.Orderly note pending []) (ht : (w.component id).template = some t)
    (hled : w.isAlive id = true → w.Led id key)
    (hheld : ∀ b ∈ t.affected key (w.component id).options.syncInputs,
      ((w.document (w.component id).document).content b.node).held? =
        some (b.derived (w.lookup (w.component id).store) (w.component id).options.missingKey))
    (handle : Handle κ σ) : w.Still handle id key (w.dependents id t key fun _ => true) := by
  have hhoused := hw.housed id t ht
  have hpatched : (w.patched (w.component id) t key).document = w.document (w.component id).document :=
    patch_of_held (fun b hb => hhoused.seats hb) hheld
  have hstats : w.scanStats id key = ⟨w.dependents id t key fun _ => true, 0⟩ := by
    rw [hw.scanStats_eq ht, hw.dependents_eq_zero ht hheld]
  refine ⟨⟨w.scanned id key, ?_, World.documents_scanned ht hpatched⟩, fun halive value hvalue => ?_⟩
  · rw [Run.refresh_eq_ok hw, hstats]
  obtain ⟨cell, hcell, hold⟩ := Option.map_eq_some_iff.mp hvalue
  obtain ⟨_, v, others, rfl, _, _, hscans⟩ := hw.writeScans ht halive hcell (hled halive) value handle
  have hlookup : (w.storeValue cell value).lookup (w.component id).store =
      w.lookup (w.component id).store := by
    funext k
    refine World.lookup_congr ?_
    rw [World.value?_storeValue (fun _ _ _ h h' => (hw.separate id _ id _ _ h h').2) hcell
      (hw.cell_lt id key cell hcell)]
    by_cases hk : k = key
    · subst hk
      rw [overwritten_of_some hvalue, hvalue]
    · exact overwritten_of_ne hk value
  have hsame : (w.storeValue cell value).patched (w.component id) t key =
      w.patched (w.component id) t key := by
    unfold World.patched
    rw [hlookup]
    rfl
  have ht' : ((w.storeValue cell value).component id).template = some t := ht
  refine ⟨_, others, hscans, ?_, ?_⟩
  · exact World.documents_scanned (w := w.storeValue cell value) ht' (hsame ▸ hpatched)
  · have hstats' : (w.storeValue cell value).scanStats id key = w.scanStats id key := by
      unfold World.scanStats
      rw [ht, ht']
      exact congrArg Patched.stats hsame
    refine (World.back?_traces_scanned (w := w.storeValue cell value) ht').trans ?_
    rw [hstats', hstats]

/-- **After a scan nothing is stale**, whoever holds subscribers. -/
theorem World.Still.of_scanned (hw : w.Orderly note pending [])
    (ht : (w.component id).template = some t) {subscribers : Array (Subscriber κ)} {v : World κ σ}
    (hv : v = { w.scanned id key with subscribers }) {pending' : SubscriberId → Nat}
    (horderly : v.Orderly note pending' []) (hled : v.isAlive id = true → v.Led id key)
    (handle : Handle κ σ) : v.Still handle id key (w.dependents id t key fun _ => true) := by
  have hcomponent : v.component id = { w.component id with scans := (w.component id).scans + 1 } := by
    rw [hv]
    exact World.component_scanned ht
  have hlookup : v.lookup (w.component id).store = w.lookup (w.component id).store := by
    have hcells : v.cells = w.cells := by
      rw [hv]
      exact World.cells_scanned ht
    funext k
    refine World.lookup_congr ?_
    unfold World.value? World.cell
    rw [hcells]
  have hdependents : v.dependents id t key (fun _ => true) = w.dependents id t key fun _ => true := by
    unfold World.dependents
    rw [hcomponent]
  rw [← hdependents]
  refine .of_held horderly ?_ hled (fun b hb => ?_) handle
  · rw [hcomponent]
    exact ht
  · rw [hcomponent] at hb ⊢
    dsimp only at hb ⊢
    rw [hlookup, hv]
    exact hw.held?_scanned ht hb

/-- **Scans are right** in every orderly world in which the watchers of a living component come first. -/
theorem World.ScansRight.of_orderly (hw : w.Orderly note pending [])
    (ht : (w.component id).template = some t)
    (hled : w.isAlive id = true → ∀ key, w.Led id key) (handle : Handle κ σ) :
    w.ScansRight handle id t := by
  refine ⟨fun key => ⟨w.scanned id key, ?_, ?_⟩, fun halive key value cell hcell => ?_⟩
  · rw [Run.refresh_eq_ok hw, hw.scanStats_eq ht]
  · have hcomponent : (w.scanned id key).component id =
        { w.component id with scans := (w.component id).scans + 1 } := World.component_scanned ht
    have hscannedLed : (w.scanned id key).isAlive id = true → (w.scanned id key).Led id key := by
      intro halive cell hcell
      have halive' : w.isAlive id = true := by
        unfold World.isAlive at halive ⊢
        rw [hcomponent] at halive
        exact halive
      rw [hcomponent] at hcell
      obtain ⟨s, rest, hsubscribers, hs⟩ := hled halive' key cell hcell
      refine ⟨s, rest, ?_, ?_⟩
      · unfold World.cell
        rw [World.cells_scanned ht]
        exact hsubscribers
      · unfold World.reaction?
        rw [World.subscribers_scanned]
        exact hs
    have hself : w.scanned id key =
        { w.scanned id key with subscribers := (w.scanned id key).subscribers } := rfl
    exact .of_scanned hw ht hself (hw.scanned id key) hscannedLed handle
  · obtain ⟨_, v, others, hv, ⟨_, horderly⟩, hvled, hscans⟩ :=
      hw.writeScans ht halive hcell (hled halive key) value handle
    have hstored := hw.storeValue cell value
    have htrace : v.traces.back? = some (.updated (w.dependents id t key fun _ => true)
        (w.dependents id t key ((w.storeValue cell value).isStale id))) := by
      rw [hv]
      refine (World.back?_traces_scanned (w := w.storeValue cell value) ht).trans ?_
      rw [hstored.scanStats_eq ht]
      rfl
    exact ⟨v, others, hscans, htrace, .of_scanned hstored ht hv horderly (fun _ => hvled) handle⟩

end

/-! ## Audits by the notes -/

/-- **An audit by the notes** of a component with this charter, in which nothing is counted yet. -/
def Audit.byNotes (id : ComponentId) (charter : Component κ) (keys : charter.store.keys.Nodup)
    (separate : charter.store.Separate) : Audit κ (σ × Notes) where
  id := id
  charter := charter
  base := 0
  requests own := own.2.updates
  astray own event := event ∈ own.2.strays
  plain := False
  keys := keys
  separate := separate

theorem Audit.byNotes_byNotes {id : ComponentId} {charter : Component κ}
    (keys : charter.store.keys.Nodup) (separate : charter.store.Separate) :
    (Audit.byNotes id charter keys separate : Audit κ (σ × Notes)).ByNotes :=
  ⟨fun _ => rfl, fun _ _ => Iff.rfl⟩

/-- **The audit once the template is compiled.** -/
def Audit.compiled (a : Audit κ σ) (t : Template) (base : Nat) (plain : Prop) : Audit κ σ where
  id := a.id
  charter := { a.charter with template := some t }
  base := base
  requests := a.requests
  astray := a.astray
  plain := plain
  keys := a.keys
  separate := a.separate

theorem Audit.ByNotes.compiled {a : Audit κ (σ × Notes)} (h : a.ByNotes) (t : Template) (base : Nat)
    (plain : Prop) : (a.compiled t base plain).ByNotes :=
  ⟨h.requests, h.astray⟩

namespace World

/-- **The scans that were called for**: the writes that the cells of a component have accepted, and the
scans that user code has asked it for. -/
def due (w : World κ (σ × Notes)) (id : ComponentId) : Nat :=
  w.writes (w.component id).store + w.host.2.updates

/-- **A node whose edit has not settled**: the event of an edit of the node is on its way still, or it was
led astray. An edit that a fault broke off stays on its way. -/
def Unsettled (w : World κ (σ × Notes)) (node : NodeId) : Prop :=
  ∃ event e, w.events[event]? = some e ∧ e.type = "input" ∧ e.target = node ∧
    (event ∈ w.host.2.strays ∨ e.current.isSome = true)

theorem Passes.led {v : World κ σ} {a : Audit κ σ} (h : v.Passes a) (halive : v.isAlive a.id = true)
    (key : String) : v.Led a.id key := by
  obtain ⟨_, htended⟩ := h
  intro cell hcell
  rw [htended.audited.store] at hcell
  exact htended.audited.leads halive key cell hcell

/-- **What is audited scans right.** -/
theorem Passes.scansRight {v : World κ σ} {a : Audit κ σ} (h : v.Passes a) {t : Template}
    (ht : a.charter.template = some t) (handle : Handle κ σ) : v.ScansRight handle a.id t := by
  have hled := h.led
  obtain ⟨_, htended⟩ := h
  exact .of_orderly htended.orderly (htended.audited.template.trans ht) hled handle

end World

/-- A live value is affected by the key that its element is bound to. -/
theorem Part.modelKey?_of_mem_affected {p : Part} {key : String} {inputs : Bool} {b : Affected}
    (hb : b ∈ p.affected key inputs) (hkind : b.kind = 1) : p.modelKey? = some key := by
  cases p with
  | comment raw => cases hb
  | text raw rendered =>
    cases rendered with
    | none => cases hb
    | some node =>
      obtain ⟨_, rfl⟩ := mem_affected_text.mp hb
      cases hkind
  | element tag attributes rendered =>
    cases rendered with
    | none => cases hb
    | some node => exact (mem_affected_element.mp hb).1.2

/-- **What carries edits listens.** -/
theorem Template.Carries.listens {t : Template} {d : Document (Action κ)} {id : ComponentId}
    (h : t.Carries d id) (inputs : Bool) : t.Listens inputs id d := by
  intro key b hb hkind
  obtain ⟨p, hp, hbp⟩ := List.mem_flatMap.mp hb
  obtain ⟨first, _, hactions⟩ := h p hp b.node key (Part.rendered_of_mem_affected hbp)
    (p.modelKey?_of_mem_affected hbp hkind)
  rw [hactions]
  exact List.mem_append_right first List.mem_cons_self

/-- **What is audited is still**, where texts and live values are left to components, but for elements whose
edits have not settled. -/
theorem World.Passes.still {v : World κ (σ × Notes)} {a : Audit κ (σ × Notes)} (h : v.Passes a)
    (hnotes : a.ByNotes) (hplain : a.plain) (halive : v.isAlive a.id = true) {t : Template}
    (ht : a.charter.template = some t) {key : String} (hkey : a.charter.store.contains key = true)
    (hsettled : ∀ p ∈ t.preorder, p.modelKey? = some key → ∀ node, p.rendered = some node →
      ¬ v.Unsettled node) (handle : Handle κ (σ × Notes)) :
    v.Still handle a.id key (v.dependents a.id t key fun _ => true) := by
  have hled := h.led
  obtain ⟨_, htended⟩ := h
  refine .of_held htended.orderly (htended.audited.template.trans ht) (fun halive => hled halive key)
    (fun b hb => ?_) handle
  have hfresh := htended.audited.fresh hplain halive t ht
  rw [htended.audited.options] at hb ⊢
  rw [htended.audited.document, htended.audited.store]
  refine hfresh key hkey b hb fun hkind hloose => ?_
  obtain ⟨p, hp, hbp⟩ := List.mem_flatMap.mp hb
  refine hsettled p hp (p.modelKey?_of_mem_affected hbp hkind) b.node
    (Part.rendered_of_mem_affected hbp) ?_
  obtain ⟨event, e, he, htype, htarget, hway⟩ := hloose
  exact ⟨event, e, he, htype, htarget, hway.imp (hnotes.astray _ event).mp fun hopen => hopen.2⟩

/-! ## A component is made -/

namespace World

/-- **At a new cell there are watchers only.** -/
theorem exists_patch_of_mem_addComponent (w : World κ σ) (document : DocumentId) (root : NodeId)
    (config : Config κ) {key : String} {cell : CellId}
    (hcell : (w.makeStore config.data).1.cell? key = some cell) :
    ∀ s ∈ ((w.addComponent document root config).cell cell).subscribers,
      ∃ id k, (w.addComponent document root config).reaction? s = some (.patch id k) := by
  have hwatch : ∀ (v : World κ σ) (id : ComponentId) (k : String),
      (∀ s ∈ (v.cell cell).subscribers, ∃ id k, v.reaction? s = some (.patch id k)) →
        ∀ s ∈ ((v.watch id k).cell cell).subscribers,
          ∃ id' k', (v.watch id k).reaction? s = some (.patch id' k') := by
    intro v id k hv
    unfold World.watch
    cases (v.component id).store.cell? k with
    | none => exact hv
    | some other =>
      intro s hs
      show ∃ id' k', (v.subscribe other (.patch id k)).reaction? s = _
      replace hs : s ∈ ((v.subscribe other (.patch id k)).cell cell).subscribers := hs
      have hold : s ∈ (v.cell cell).subscribers →
          ∃ id' k', (v.subscribe other (.patch id k)).reaction? s = some (.patch id' k') := by
        intro hmem
        obtain ⟨id', k', hreaction⟩ := hv s hmem
        exact ⟨id', k', reaction?_subscribe_of_eq_some hreaction other _⟩
      rcases Nat.lt_or_ge other v.cells.size with hlt | hge
      · rcases (mem_subscribers_subscribe hlt).mp hs with hmem | ⟨rfl, _⟩
        · exact hold hmem
        · exact ⟨id, k, (reaction?_subscribe v other _ _).trans (if_pos rfl)⟩
      · refine hold ?_
        have hsame : (v.subscribe other (.patch id k)).cell cell = v.cell cell := by
          unfold World.subscribe World.modifyCell World.cell
          rw [show v.cells.modify other _ = v.cells from modify_of_size_le hge _]
        rwa [hsame] at hs
  have hall : ∀ (keys : List String) (v : World κ σ) (id : ComponentId),
      (∀ s ∈ (v.cell cell).subscribers, ∃ id k, v.reaction? s = some (.patch id k)) →
        ∀ s ∈ ((keys.foldl (fun w key => w.watch id key) v).cell cell).subscribers,
          ∃ id' k', (keys.foldl (fun w key => w.watch id key) v).reaction? s = some (.patch id' k') := by
    intro keys
    induction keys with
    | nil => exact fun _ _ hv => hv
    | cons key rest ih => exact fun v id hv => ih _ id (hwatch v id key hv)
  refine hall _ (w.withAdded document root config) w.components.size fun s hs => ?_
  have hunheard : ((w.withAdded document root config).cell cell).subscribers = [] :=
    ((makeStore_spec w config.data).unheard key cell hcell).2
  rw [hunheard] at hs
  cases hs

/-- **A new component is led.** -/
theorem Orderly.led_addComponent {w : World κ σ} {note : σ → Prop} {pending : SubscriberId → Nat}
    {document : DocumentId} {root : NodeId} {config : Config κ}
    (hadded : (w.addComponent document root config).Orderly note pending [])
    (halive : (w.addComponent document root config).isAlive w.components.size = true) (key : String) :
    (w.addComponent document root config).Led w.components.size key := by
  intro cell hcell
  obtain ⟨_, hcomponent⟩ := w.component_addComponent document root config
  have hnew : (w.makeStore config.data).1.cell? key = some cell := by
    rw [hcomponent] at hcell
    exact hcell
  obtain ⟨s, hs, _⟩ := hadded.watched _ key cell halive hcell List.not_mem_nil
  obtain ⟨first, rest, hsubscribers⟩ := List.exists_cons_of_ne_nil (List.ne_nil_of_mem hs)
  have hfirst : first ∈ ((w.addComponent document root config).cell cell).subscribers :=
    hsubscribers ▸ List.mem_cons_self
  obtain ⟨id, k, hreaction⟩ := w.exists_patch_of_mem_addComponent document root config hnew first hfirst
  obtain ⟨rfl, rfl⟩ := hadded.separate _ key id k cell hcell
    (hadded.tuned cell first hfirst id k hreaction)
  exact ⟨first, rest, hsubscribers, hreaction⟩

/-- **A component that is added** stands an audit in which nothing is counted yet. -/
theorem Orderly.tended_addComponent {w : World κ (Diary κ (σ × Notes))}
    {note : Diary κ (σ × Notes) → Prop} {pending : SubscriberId → Nat} (hw : w.Orderly note pending [])
    {document : DocumentId} (hdocument : document < w.documents.size) (root : NodeId)
    (config : Config κ) :
    (w.addComponent document root config).Tended note
      (Audit.byNotes w.components.size (w.added document root config).charter
        (w.founded_makeStore config.data).nodup (makeStore_spec w config.data).separate).kept
      pending .start := by
  have hadded := hw.addComponent hdocument root config
  have hadds := w.adds_addComponent document root config
  obtain ⟨watchers, hcomponent⟩ := w.component_addComponent document root config
  have hsize : w.components.size < (w.addComponent document root config).components.size := by
    refine lt_of_isAlive ?_
    unfold World.isAlive
    rw [hcomponent]
    rfl
  refine ⟨hadded, ⟨hsize, ?_, fun halive key => ?_, fun halive s key hs => ?_, fun _ => ?_,
    fun _ hnone => absurd rfl hnone, fun hplain => hplain.elim, fun hplain => hplain.elim⟩,
    fun _ h => h.elim, fun _ _ h => h.elim⟩
  · show (World.component _ w.components.size).charter = _
    rw [hcomponent]
    rfl
  · have hled := hadded.led_addComponent halive key
    unfold World.Led at hled
    rw [hcomponent] at hled
    exact hled
  · refine Nat.eq_zero_of_not_pos fun hpos => ?_
    obtain ⟨reaction, hreaction⟩ := Option.isSome_iff_exists.mp (hw.waiting s hpos)
    have hold : w.reaction? s = some (.patch w.components.size key) := by
      unfold World.reaction? at hs ⊢
      rw [← hadds.subscriber s (lt_of_reaction? hreaction)]
      exact hs
    exact absurd (hw.patched_lt s _ key hold) (Nat.lt_irrefl _)
  · show (World.component _ w.components.size).scans = 0
    rw [hcomponent]
    rfl

/-- **A component that is rendered** stands an audit from here on: what was called for so far is not
counted. -/
theorem Tended.withRendering {w : World κ (Diary κ (σ × Notes))}
    {note note' : Diary κ (σ × Notes) → Prop} {pending : SubscriberId → Nat}
    {a : Audit κ (σ × Notes)} (hnotes : a.ByNotes) (h : w.Tended note a.kept pending .start)
    (hnone : a.charter.template = none) {t : Template} (hbare : t.Bare)
    (hfault : (w.rendering a.id t).fault = none) (hnote : note w.host → note' w.host) (plain : Prop) :
    (w.withRendering a.id t).Tended note'
      (a.compiled (w.rendering a.id t).template (w.seen.due a.id) plain).kept pending .start := by
  have hlt : a.id < w.components.size := h.audited.there
  have hstore : (w.component a.id).store = a.charter.store := h.audited.store
  have hdocument : (w.component a.id).document = a.charter.document := h.audited.document
  have hoptions : (w.component a.id).options = a.charter.options := h.audited.options
  have hcomponent : (w.withRendering a.id t).component a.id =
      { w.component a.id with template := some (w.rendering a.id t).template } :=
    component_modifyComponent_self (w := w.setDocument _ _) hlt _
  have hrendered : (w.withRendering a.id t).document a.charter.document =
      (w.rendering a.id t).document := by
    rw [← hdocument]
    exact document_setDocument (h.orderly.document_lt a.id hlt) _
  have halive : (w.withRendering a.id t).isAlive a.id = w.isAlive a.id := by
    unfold World.isAlive
    rw [hcomponent]
  have horderly : (w.withRendering a.id t).Orderly note pending [] :=
    h.orderly.render (t.grows_mount _ _ _) (t.housed_mount _ _ _ hbare)
      fun node hnode => t.le_of_mem_handles_mount _ _ _ hbare hnode
  have hdisplays : Displays (w.rendering a.id t).document (w.lookup a.charter.store)
      a.charter.options.missingKey (fun _ _ => False) (w.rendering a.id t).template := by
    rw [← hstore, ← hoptions]
    exact (Template.mount_displays hbare hfault).1
  have hscans : (w.component a.id).scans = 0 := h.audited.unscanned hnone
  refine ⟨{ horderly with noted := hnote h.orderly.noted }, ⟨?_, ?_, fun hnow key => ?_, fun hnow s => ?_,
    fun hnone' => ?_, fun _ _ => ?_, fun _ t' ht' => ?_, fun _ _ t' ht' => ?_⟩,
    fun _ he => he.elim, fun _ _ he => he.elim⟩
  · exact Nat.lt_of_lt_of_eq hlt Array.size_modify.symm
  · refine (congrArg Component.charter hcomponent).trans ?_
    show ({ (w.component a.id).charter with template := _ } : Component κ) = _
    rw [show (w.component a.id).charter = a.charter from h.audited.charter]
    rfl
  · exact h.audited.leads (halive.symm.trans hnow) key
  · exact h.audited.rested (halive.symm.trans hnow) s
  · cases hnone'
  · show ((w.withRendering a.id t).component a.id).scans + w.seen.due a.id =
      w.writes a.charter.store + a.requests w.host.own
    rw [hcomponent, hnotes.requests]
    show (w.component a.id).scans + (w.writes (w.component a.id).store + w.host.own.2.updates) = _
    rw [hscans, hstore, Nat.zero_add]
  · obtain rfl := Option.some.inj ht'
    show Template.Listens _ _ a.id ((w.withRendering a.id t).document a.charter.document)
    rw [hrendered]
    exact (Template.carries_mount rfl hbare hfault).listens _
  · obtain rfl := Option.some.inj ht'
    show Template.Fresh _ _ _ (w.lookup a.charter.store) a.charter.options.missingKey _
      ((w.withRendering a.id t).document a.charter.document)
    rw [hrendered]
    exact .of_displays hdisplays

end World

/-! ## Scans add up -/

/-- **The scans of a component add up** in a world: they are what has been called for since the template was
compiled, and each scan is right. -/
structure World.AddsUp (v : World κ (σ × Notes)) (id : ComponentId) (t : Template) (base : Nat) :
    Prop where
  template : (v.component id).template = some t
  tally : v.isAlive id = true → (v.component id).scans + base = v.due id
  right : ∀ handle, v.ScansRight handle id t

theorem World.Passes.addsUp {v : World κ (σ × Notes)} {a : Audit κ (σ × Notes)} (h : v.Passes a)
    (hnotes : a.ByNotes) {t : Template} (ht : a.charter.template = some t) : v.AddsUp a.id t a.base := by
  have hright := h.scansRight ht
  obtain ⟨_, htended⟩ := h
  refine ⟨htended.audited.template.trans ht, fun halive => ?_, hright⟩
  have htally := htended.audited.tally halive fun hnone => by
    rw [ht] at hnone
    cases hnone
  unfold World.due
  rw [htally, htended.audited.store, hnotes.requests]

/-- **Texts and live values are left to components** once a component is compiled: by handlers, by its
`mounted` hook, and by the user code that goes on. The `created` hook may assign them. -/
structure Customs.LeaveRendered (customs : Customs κ σ) (id : ComponentId) (config : Config κ)
    (later : Conduct κ σ) : Prop where
  handlers : ∀ run occasion, occasion ≠ .hook id → (customs run occasion).Retains
  mounted : ∀ run, config.mounted = some run → (customs run (.hook id)).Retains
  later : later.Retains

/-- **From the rendered component on** every world that user code finds passes the audit. -/
theorem passes_later {a : Audit κ (σ × Notes)} (hnotes : a.ByNotes) {id : ComponentId}
    (hid : a.id = id) {customs : Customs κ σ}
    (hcustoms : a.plain → ∀ run occasion, occasion ≠ .hook id → (customs run occasion).Retains)
    (depth : Nat) {start : Diary κ (σ × Notes)} {rendered mounted : World κ (Diary κ (σ × Notes))}
    (h : rendered.Tended (start.Follows (·.Passes a)) a.kept (fun _ => 0) .start) {hook : Option κ}
    (hhook : a.plain → ∀ run, hook = some run → (customs run (.hook id)).Retains)
    (hmounted : Run.runHook ((customs.noting id).handle depth) id hook rendered = .ok () mounted)
    (traces : List Trace) {later : Conduct κ σ} (hlater : a.plain → later.Retains)
    {last : World κ (Diary κ (σ × Notes))}
    (hlast : last = Run.left ((later.noting id).run ((customs.noting id).handle depth))
      (mounted.tell traces)) : ∀ v ∈ last.seen :: last.host.since start, v.Passes a := by
  subst hid
  have hready := Run.Keeps.of_ok (Run.tends_hook hnotes hcustoms depth hhook (fun _ => 0) .start) h
    hmounted
  have hrun : Run.Tends (start.Follows (·.Passes a)) a.kept
      ((later.noting a.id).run ((customs.noting a.id).handle depth)) :=
    Run.tends_run hnotes (fun run occasion hne => Run.tends_handle hnotes hcustoms depth
      fun hplain => hcustoms hplain run occasion hne) hlater
  have htended : last.Tended (start.Follows (·.Passes a)) a.kept (fun _ => 0) .start := by
    rw [hlast]
    exact Run.Keeps.left (hrun (fun _ => 0) .start) (hready.tell traces)
  exact List.forall_mem_cons.mpr ⟨htended.seen, htended.orderly.noted.found⟩

/-- **A new component** stands an audit by the notes, in which nothing is counted yet. -/
theorem World.Orderly.exists_audit {w : World κ (Diary κ (σ × Notes))}
    {note : Diary κ (σ × Notes) → Prop} (hw : w.Orderly note (fun _ => 0) []) {document : DocumentId}
    (hdocument : document < w.documents.size) (root : NodeId) (config : Config κ) :
    ∃ a : Audit κ (σ × Notes), a.id = w.components.size ∧ a.ByNotes ∧ ¬ a.plain ∧
      a.charter.template = none ∧ ∀ note' : Diary κ (σ × Notes) → Prop, note' w.host →
        (w.begun document root config).Tended note' a.kept (fun _ => 0) .start := by
  let mounting := w.tell [.mounting config.el]
  refine ⟨.byNotes w.components.size (mounting.added document root config).charter
    (mounting.founded_makeStore config.data).nodup (makeStore_spec mounting config.data).separate, rfl,
    Audit.byNotes_byNotes _ _, fun h => h, rfl, fun note' hnote => ?_⟩
  have hmounting : mounting.Orderly note' (fun _ => 0) [] :=
    ({ hw with noted := hnote } : w.Orderly note' (fun _ => 0) []).tell [.mounting config.el]
  exact hmounting.tended_addComponent hdocument root config

/-- **Once a component is rendered** it stands an audit that begins there, whatever is to be said of the user
code that goes on. -/
theorem World.Tended.exists_rendered {created rendered : World κ (Diary κ (σ × Notes))}
    {note : Diary κ (σ × Notes) → Prop} {a : Audit κ (σ × Notes)}
    (h : created.Tended note a.kept (fun _ => 0) .start) (hnotes : a.ByNotes)
    (hnone : a.charter.template = none)
    (hrender : Run.renderComponent a.id (created.compiled a.id) (created.tell [.compiling]) =
      .ok () rendered) :
    ∃ t, ∀ plain : Prop, ∃ b : Audit κ (σ × Notes), b.id = a.id ∧ b.base = created.seen.due a.id ∧
      b.charter.template = some t ∧ b.plain = plain ∧ b.ByNotes ∧
      rendered.Tended (created.host.Follows (·.Passes b)) b.kept (fun _ => 0) .start := by
  obtain ⟨hfault, traces, rfl⟩ :
      ((created.tell [.compiling]).rendering a.id (created.compiled a.id)).fault = none ∧
        ∃ traces, rendered =
          { (created.tell [.compiling]).withRendering a.id (created.compiled a.id) with traces } := by
    have hcases := Run.renderComponent_cases (created.tell [.compiling]) a.id (created.compiled a.id) _ rfl
    rw [hrender] at hcases
    exact hcases
  refine ⟨((created.tell [.compiling]).rendering a.id (created.compiled a.id)).template, fun plain =>
    ⟨a.compiled _ _ plain, rfl, rfl, rfl, rfl, hnotes.compiled _ _ _, ?_⟩⟩
  exact ((h.tell [.compiling]).withRendering hnotes hnone (Template.bare_ofContents _) hfault
    (fun _ => .refl _ _) plain).withTraces traces

/-- **Scans add up, and a second one changes nothing.** User code of any kind makes a world, a component is
made in it, and user code of any kind goes on. In every world that user code finds once the `created` hook
has returned, the component has counted as many scans as its cells have accepted writes and as user code has
asked for scans since then. A scan for a key visits what depends on the key, changes what is stale, and
leaves nothing that is. Where texts and live values are left to components, nothing is stale in the first
place that depends on a declared key, but for the elements bound to it whose edits have not settled.

The user code here notes what it asks for, which is how its requests are counted. That is a way of saying
it and no condition on user code: by `left_noting` any user code finds and leaves the same worlds without
the notes, and by `Run.mirrors_mount` so does the making of the component. -/
theorem scans_add_up (customs : Customs κ σ) (depth : Nat) (before : Conduct κ σ) (own : σ)
    {document : DocumentId} {config : Config κ} {id : ComponentId}
    {w made : World κ (Diary κ (σ × Notes))}
    (hw : w = Run.left ((before.noting id).run ((customs.noting id).handle depth))
      (World.ofHost ⟨(own, .empty), [], []⟩))
    (hmade : Run.mount ((customs.noting id).handle depth) document config w = .ok (.ok id) made) :
    ∃ root created t, config.Finds (w.document document) root ∧
      Run.runHook ((customs.noting id).handle depth) id config.created
        (w.begun document root config) = .ok () created ∧
      ∀ (later : Conduct κ σ) last,
        last = Run.left ((later.noting id).run ((customs.noting id).handle depth)) made →
        ∀ v ∈ last.seen :: last.host.since created.host,
          v.AddsUp id t (created.seen.due id) ∧
          (customs.LeaveRendered id config later → v.isAlive id = true →
            ∀ key, (v.component id).store.contains key = true →
              (∀ p ∈ t.preorder, p.modelKey? = some key → ∀ node, p.rendered = some node →
                ¬ v.Unsettled node) →
                ∀ handle, v.Still handle id key (v.dependents id t key fun _ => true)) := by
  obtain ⟨selector, root, hselector, hquery⟩ := Run.exists_query_of_made hmade
  obtain ⟨created, rendered, mounted, rfl, hcreated, hrender, hmounted, rfl⟩ :=
    Run.mount_stages_of_query hselector hquery hmade
  obtain ⟨_, e, helement⟩ := Selector.exists_element_of_query hquery
  generalize hid : w.components.size = id at *
  have horderly : w.Orderly Diary.Orderly (fun _ => 0) [] := by
    rw [hw]
    exact Run.Keeps.left (Run.upholds_run (Run.upholds_handle _ depth) _ fun _ => 0)
      (World.orderly_ofHost fun v hv => absurd hv List.not_mem_nil)
  obtain ⟨a, hid', hnotes, hplain, hnone, hbegun⟩ :=
    horderly.exists_audit (World.lt_of_element helement) root config
  obtain rfl := hid'.trans hid
  have hfirst : created.Tended (w.host.Follows (·.Passes a)) a.kept (fun _ => 0) .start :=
    Run.Keeps.of_ok (Run.tends_hook hnotes (fun h => absurd h hplain) depth (fun h => absurd h hplain)
      (fun _ => 0) .start) (hbegun _ (.refl _ _)) hcreated
  obtain ⟨t, hrendered⟩ := hfirst.exists_rendered hnotes hnone hrender
  refine ⟨root, created, t, ⟨selector, hselector, hquery⟩, hcreated, fun later last hlast v hv => ?_⟩
  -- Whether user code leaves texts and live values to components is a parameter of the audit.
  obtain ⟨b, hid', hbase, ht, hplain', hcompiled, hrendered⟩ :=
    hrendered (customs.LeaveRendered a.id config later)
  have hpasses : v.Passes b := by
    refine passes_later hcompiled hid' (fun hplain => ?_) depth hrendered (fun hplain => ?_) hmounted _
      (fun hplain => ?_) hlast v hv
    · exact (hplain' ▸ hplain : customs.LeaveRendered a.id config later).handlers
    · exact (hplain' ▸ hplain : customs.LeaveRendered a.id config later).mounted
    · exact (hplain' ▸ hplain : customs.LeaveRendered a.id config later).later
  have haddsUp := hpasses.addsUp hcompiled ht
  rw [hid', hbase] at haddsUp
  refine ⟨haddsUp, fun hleave halive key hkey hsettled handle => ?_⟩
  have hstore : (v.component a.id).store = b.charter.store := by
    obtain ⟨_, htended⟩ := hpasses
    rw [← hid']
    exact htended.audited.store
  have hstill := hpasses.still hcompiled (hplain' ▸ hleave) (hid' ▸ halive) ht
    (hstore ▸ hkey) hsettled handle
  rw [hid'] at hstill
  exact hstill

/-! ## A page -/

/-- A paragraph with a text that two keys are shown in, an input, and an element of another kind. -/
def tallyPage : String :=
  "<p id=app>{{ k }}{{ m }}<input v-model=k @input=go><b v-model=k></b></p>"

/-- A component on it. -/
def tally : Config Unit where
  el := "#app"
  data := [("k", .str "old"), ("m", .int 1)]
  methods := [("go", ())]
  created := some ()
  mounted := none
  options := { syncInputs := true }

/-- Parses the page, and another one with as many nodes. -/
def tallyPrepared : Conduct Unit Unit :=
  .ask (.parseDocument tallyPage) fun _ => .ask (.parseDocument (tallyPage ++ tallyPage)) fun _ => .done

/-- User code whose `created` hook, whose method and whose subscribers do this. -/
def tallying (created method subscriber : Conduct Unit Unit) : Customs Unit Unit
  | _, .hook _ => created
  | _, .method _ _ => method
  | _, .write _ => subscriber
  | _, .event _ => .done

/-- The user code that keeps notes: the hook writes and asks for a scan, and the method writes. -/
def tallyNoting : Customs Unit (Unit × Notes) :=
  (tallying (.ask (.write 0 "k" (.str "early")) fun _ => .ask (.update 0 "k") fun _ => .done)
    (.ask (.write 0 "m" (.int 2)) fun _ => .done) .done).noting 0

/-- Somebody types into the input, and a scan is asked for. -/
def tallyLater : Conduct Unit Unit := .ask (.input 0 8 "x") fun _ => .ask (.update 0 "k") fun _ => .done

/-- The world when all of this is over. -/
def World.tallied : World Unit (Diary Unit (Unit × Notes)) :=
  Run.left ((tallyLater.noting 0).run (tallyNoting.handle 3))
    (Run.left (Run.mount (tallyNoting.handle 3) 0 tally)
      (Run.left ((tallyPrepared.noting 0).run (tallyNoting.handle 3))
        (World.ofHost ⟨((), .empty), [], []⟩)))

/-- The key that was written in the hook is scanned for once more when somebody types; so is the other key,
which the method writes; and a scan is asked for. The write of the hook, and the scan that the hook asked for,
are not counted. -/
theorem scans_add_up_tally :
    ∃ (created : World Unit (Diary Unit (Unit × Notes))) (t : Template),
      World.tallied.seen.AddsUp 0 t (created.seen.due 0) ∧
        (∀ handle, World.tallied.seen.Still handle 0 "k"
          (World.tallied.seen.dependents 0 t "k" fun _ => true)) ∧
          created.seen.due 0 = 2 ∧ (World.tallied.seen.component 0).scans = 3 := by
  have hmade : Run.makesComponent (Run.mount (tallyNoting.handle 3) 0 tally) 0
      (Run.left ((tallyPrepared.noting 0).run (tallyNoting.handle 3))
        (World.ofHost ⟨((), .empty), [], []⟩)) = true := by
    decide +kernel
  have hfound : World.tallied.seen.isAlive 0 = true ∧
      (World.tallied.seen.component 0).store.contains "k" = true ∧
      (World.tallied.seen.component 0).scans = 3 ∧ World.tallied.seen.due 0 = 5 ∧
      World.tallied.seen.host.2.strays = [] ∧
      World.tallied.seen.events.toList.all (fun e => e.current.isNone) = true := by
    decide +kernel
  obtain ⟨halive, hdeclared, hscans, hdue, hstrays, hrest⟩ := hfound
  obtain ⟨_, created, t, _, _, hall⟩ := scans_add_up
    (tallying (.ask (.write 0 "k" (.str "early")) fun _ => .ask (.update 0 "k") fun _ => .done)
      (.ask (.write 0 "m" (.int 2)) fun _ => .done) .done)
    3 tallyPrepared () rfl (Run.eq_of_makesComponent hmade)
  obtain ⟨hadds, hstill⟩ := hall tallyLater World.tallied rfl _ List.mem_cons_self
  have hsettled : ∀ node, ¬ World.tallied.seen.Unsettled node := by
    rintro node ⟨event, e, he, _, _, hway⟩
    rw [hstrays] at hway
    have hnone := List.all_eq_true.mp hrest e (List.mem_of_getElem? (Array.getElem?_toList ▸ he))
    rcases hway with hmem | hsome
    · cases hmem
    · rw [Option.isNone_iff_eq_none.mp hnone] at hsome
      cases hsome
  have hleave : (tallying (.ask (.write 0 "k" (.str "early")) fun _ => .ask (.update 0 "k") fun _ => .done)
      (.ask (.write 0 "m" (.int 2)) fun _ => .done) .done).LeaveRendered 0 tally tallyLater := by
    refine ⟨fun run occasion _ => ?_, fun _ he => (by cases he),
      ⟨trivial, fun _ => ⟨trivial, fun _ => trivial⟩⟩⟩
    cases occasion with
    | event event => trivial
    | method id event => exact ⟨trivial, fun _ => trivial⟩
    | write value => trivial
    | hook id => exact ⟨trivial, fun _ => ⟨trivial, fun _ => trivial⟩⟩
  have htally := hadds.tally halive
  rw [hdue, hscans] at htally
  exact ⟨created, t, hadds, hstill hleave halive "k" hdeclared fun _ _ _ node _ => hsettled node,
    by omega, hscans⟩

/-- The world once the component is made, without notes. -/
def World.withTally (created method subscriber : Conduct Unit Unit) : World Unit (Diary Unit Unit) :=
  Run.left (Run.mount ((tallying created method subscriber).handle 3) 0 tally)
    (Run.left (tallyPrepared.run ((tallying created method subscriber).handle 3))
      (World.ofHost ⟨(), [], []⟩))

/-- What is left when somebody types into the input, and the method does this. -/
def World.typedTally (method : Conduct Unit Unit) : World Unit (Diary Unit Unit) :=
  Run.left (Run.edit ((tallying .done method .done).handle 3) 0 8 "x")
    (World.withTally .done method .done)

/-- A subscriber hears the first key, and writes the second. -/
def World.heardTally : World Unit (Diary Unit Unit) :=
  Run.left (Conduct.run ((tallying .done .done (.ask (.write 0 "m" (.int 2)) fun _ => .done)).handle 3)
      (.ask (.subscribe 0 "k" ()) fun _ => .done))
    (World.withTally .done .done (.ask (.write 0 "m" (.int 2)) fun _ => .done))

/-- Whether a write of the value that the key has in this world changes a node, when nobody but the
subscribers does anything. -/
def World.rewriteChanges {σ : Type} (w : World Unit σ) (handle : Handle Unit σ) (node : NodeId) : Bool :=
  w.value? (w.component 0).store "k" = some (.str "old") &&
    ((Run.left (Run.write handle 0 "k" (.str "old")) w).document 0).content node !=
      (w.document 0).content node

/-- **What scans do not do.** An element of the wrong kind is rendered and names the key, but no scan visits
it; and a scan that the `created` hook asks for is not counted. A write of the value that a key has changes
what a subscriber makes it change. It changes the live value of an element while somebody's edit has yet
to be carried to the key, also when that never happens because a method fails, and when the event of the edit
is at no node any more because a method has dispatched it in another document. -/
theorem scans_do_not :
    ((∃ t, ((World.withTally .done .done .done).component 0).template = some t ∧
        Part.text "{{ k }}{{ m }}" (some 7) ∈ t.preorder ∧
        Part.element "input" [⟨"v-model", "k"⟩, ⟨"@input", "go"⟩] (some 8) ∈ t.preorder ∧
        Part.element "b" [⟨"v-model", "k"⟩] (some 9) ∈ t.preorder) ∧
      (Run.refresh 0 "k").run' (World.withTally .done .done .done) = some ⟨2, 0⟩) ∧
    ((World.withTally (.ask (.update 0 "k") fun _ => .done) .done .done).component 0).scans ≠ 1 ∧
    World.heardTally.rewriteChanges
      ((tallying .done .done (.ask (.write 0 "m" (.int 2)) fun _ => .done)).handle 3) 7 = true ∧
    (World.typedTally .done).host.entered.any (·.rewriteChanges (fun _ _ => pure ()) 8) = true ∧
    (World.typedTally (.fail (.raised ""))).rewriteChanges (fun _ _ => pure ()) 8 = true ∧
    (World.typedTally (.ask (.dispatch 1 0) fun _ => .done)).host.returned.any (fun v =>
      v.events.toList.all (fun e => e.current.isNone) &&
        v.rewriteChanges (fun _ _ => pure ()) 8) = true := by
  have hfound : ((World.withTally .done .done .done).component 0).template.any (fun t =>
      decide (Part.text "{{ k }}{{ m }}" (some 7) ∈ t.preorder) &&
      decide (Part.element "input" [⟨"v-model", "k"⟩, ⟨"@input", "go"⟩] (some 8) ∈ t.preorder) &&
      decide (Part.element "b" [⟨"v-model", "k"⟩] (some 9) ∈ t.preorder)) = true := by
    decide +kernel
  obtain ⟨t, ht, hparts⟩ := (Option.any_eq_true _ _).mp hfound
  rw [Bool.and_eq_true, Bool.and_eq_true, decide_eq_true_iff, decide_eq_true_iff, decide_eq_true_iff]
    at hparts
  refine ⟨⟨⟨t, ht, hparts.1.1, hparts.1.2, hparts.2⟩, ?_⟩, ?_⟩
  · decide +kernel
  · decide +kernel

end BoundView
