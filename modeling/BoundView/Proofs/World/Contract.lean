import BoundView.Component.Dispatch
import BoundView.Proofs.Rendering.Patching
import BoundView.Proofs.World.Tables
import BoundView.Proofs.World.Triple

/-!
# The contract of a component

While requests run, nested in one another in any way, the world keeps a **contract** with a
component: the component and its watchers stay held, the first subscriber of each of its cells is
the one that patches, nobody hears a cell to patch for another key, and the document displays its
template under the present values of its keys.

What changes from one point of a run to another is the **stage**: how many activities hold the
component, which subscribers are held for turns that are still to come, and which edits of a person
are on their way to the store. The live value of a node that is being edited is not held to anything
until the edit has arrived.

Between the moment when a value is stored and the moment when the first subscriber has patched, the
template is displayed under a lookup that differs at one key. The world is **stale** at this key.

Main statements: one law for each edit of a world, saying how it moves the stage.
-/

namespace BoundView

open BoundView.Dom (Document NodeId)
open BoundView.Dom.Document (SameLinks SameListeners)
open BoundView.Interpolation (Lookup)

variable {κ σ : Type}

/-- **What stays the same** about a component while requests run. -/
structure Contract (κ σ : Type) where
  id : ComponentId
  document : DocumentId
  root : NodeId
  store : Store
  methods : List (String × κ)
  options : Options
  template : Option Template
  /-- The rendered nodes whose live values are held to nothing. -/
  loose : Part → NodeId → Prop
  /-- What else holds of the document. -/
  frame : Document (Action κ) → Prop
  /-- What holds of the values of the keys. -/
  values : (String → Option Value) → Prop
  /-- What holds of the caller's state. -/
  note : σ → Prop
  /-- What holds of the caller's state after a fault. -/
  failed : σ → Prop
  separate : store.Separate
  nodup : ∀ t, template = some t → t.handles.Nodup
  loose_of_syncInputs : options.syncInputs = false → ∀ p node, loose p node
  frame_of_sameOutside : ∀ t d e, template = some t → frame d → SameOutside t d e → frame e

/-- **A point of a run.** -/
structure Stage where
  /-- The activities that run on behalf of the component. -/
  activities : Nat
  /-- The turns that each subscriber still has to get. -/
  pending : SubscriberId → Nat
  /-- The edits whose listeners are running, with the edited nodes. -/
  edits : List (EventId × NodeId)

namespace Stage

/-- The stage at which nothing runs. -/
def idle : Stage := ⟨0, fun _ => 0, []⟩

/-- One more activity. -/
def enter (g : Stage) : Stage := { g with activities := g.activities + 1 }

/-- More turns to come. -/
def await (g : Stage) (ss : List SubscriberId) : Stage :=
  { g with pending := fun s => g.pending s + ss.count s }

/-- One more edit on its way. -/
def begin (g : Stage) (event : EventId) (node : NodeId) : Stage :=
  { g with edits := (event, node) :: g.edits }

/-- **A later stage** among the same activities and turns: edits may have arrived. -/
structure Settles (g g' : Stage) : Prop where
  activities : g'.activities = g.activities
  pending : g'.pending = g.pending
  edits : ∀ r ∈ g'.edits, r ∈ g.edits

theorem Settles.refl (g : Stage) : g.Settles g := ⟨rfl, rfl, fun _ h => h⟩

theorem Settles.await {g g' : Stage} (h : g.Settles g') (ss : List SubscriberId) :
    (g.await ss).Settles (g'.await ss) := by
  refine ⟨h.activities, ?_, h.edits⟩
  unfold Stage.await
  dsimp only
  rw [h.pending]

theorem await_await (g : Stage) (ss ts : List SubscriberId) :
    (g.await ss).await ts = g.await (ss ++ ts) := by
  unfold await
  dsimp only
  congr
  funext s
  rw [List.count_append, Nat.add_assoc]

end Stage

namespace World

/-- **Whether listeners of an edit of a node are running.** -/
def IsEditing (w : World κ σ) (event : EventId) (node : NodeId) : Prop :=
  ∃ e, w.events[event]? = some e ∧ e.type = "input" ∧ e.target = node ∧ e.current.isSome = true

end World

namespace Contract

/-- A node whose live value is held to nothing, or which is being edited. -/
def looseAt (c : Contract κ σ) (g : Stage) (p : Part) (node : NodeId) : Prop :=
  c.loose p node ∨ ∃ event, (event, node) ∈ g.edits

/-- **A component as the contract has it.** -/
structure Fits (c : Contract κ σ) (d : Component κ) : Prop where
  document : d.document = c.document
  root : d.root = c.root
  store : d.store = c.store
  methods : d.methods = c.methods
  options : d.options = c.options
  template : d.template = c.template

/-- **The wiring of a component**: what it is, who holds it, and what its cells notify first. -/
structure Wired (c : Contract κ σ) (g : Stage) (w : World κ σ) : Prop where
  component_lt : c.id < w.components.size
  fits : c.Fits (w.component c.id)
  held : g.activities < (w.component c.id).holders
  others : ∀ id, id ≠ c.id → (w.component id).template = none ∧ (w.component id).holders = 0
  document_lt : c.document < w.documents.size
  watched : ∀ key cell, c.store.cell? key = some cell → cell < w.cells.size ∧
    ∃ s rest, (w.cell cell).subscribers = s :: rest ∧ w.reaction? s = some (.patch c.id key)
  tuned : w.Tuned c.store
  awaited : ∀ s key, w.reaction? s = some (.patch c.id key) → g.pending s < w.subscriberHolders s
  editing : ∀ event node, (event, node) ∈ g.edits → w.IsEditing event node
  noted : c.note w.host

/-- **The contract is kept**, up to the lookup under which the template is displayed. -/
structure Holds (c : Contract κ σ) (g : Stage) (lookup : Lookup) (w : World κ σ) : Prop
    extends Wired c g w where
  shown : ∀ t, c.template = some t →
    Displays (w.document c.document) lookup c.options.missingKey (c.looseAt g) t
  framed : c.frame (w.document c.document)
  valued : c.values (w.value? c.store)

/-- **The contract is kept.** -/
def Met (c : Contract κ σ) (g : Stage) (w : World κ σ) : Prop := c.Holds g (w.lookup c.store) w

/-- **The contract is kept but for one key**, whose value is newer than what is displayed. -/
def Stale (c : Contract κ σ) (g : Stage) (key : String) (w : World κ σ) : Prop :=
  ∃ lookup, (∀ k, k ≠ key → w.lookup c.store k = lookup k) ∧ c.Holds g lookup w

/-- What a fault leaves. -/
def Fallen (c : Contract κ σ) (w : World κ σ) : Prop := c.failed w.host

variable {c : Contract κ σ} {g : Stage} {lookup : Lookup} {w : World κ σ}

theorem Met.stale (h : c.Met g w) (key : String) : c.Stale g key w := ⟨_, fun _ _ => rfl, h⟩

/-! ## Edits that the contract does not read -/

theorem Holds.tell (h : c.Holds g lookup w) (traces : List Trace) :
    c.Holds g lookup (w.tell traces) := { h with }

theorem Met.tell (h : c.Met g w) (traces : List Trace) : c.Met g (w.tell traces) :=
  Holds.tell h traces

/-! ## The component -/

theorem looseAt_congr {g' : Stage} (h : g'.edits = g.edits) : c.looseAt g' = c.looseAt g := by
  unfold looseAt
  rw [h]

/-- A change of the component that keeps its fixed parts. -/
theorem Holds.modifyComponent {g' : Stage} (h : c.Holds g lookup w)
    {f : Component κ → Component κ} (hpending : g'.pending = g.pending) (hedits : g'.edits = g.edits)
    (hfits : ∀ d, c.Fits d → c.Fits (f d))
    (hheld : g'.activities < (f (w.component c.id)).holders) :
    c.Holds g' lookup (w.modifyComponent c.id f) := by
  have hself := World.component_modifyComponent_self h.component_lt f
  have hsize : (w.modifyComponent c.id f).components.size = w.components.size :=
    Array.size_modify
  refine ⟨⟨?_, ?_, ?_, ?_, h.document_lt, h.watched, h.tuned, ?_, ?_, h.noted⟩, ?_, h.framed,
    h.valued⟩
  · rw [hsize]
    exact h.component_lt
  · rw [hself]
    exact hfits _ h.fits
  · rw [hself]
    exact hheld
  · intro id hid
    rw [World.component_modifyComponent_of_ne h.component_lt hid]
    exact h.others id hid
  · rw [hpending]
    exact h.awaited
  · rw [hedits]
    exact h.editing
  · rw [looseAt_congr hedits]
    exact h.shown

/-- An activity holds the component. -/
theorem Met.holdComponent (h : c.Met g w) : c.Met g.enter (w.holdComponent c.id) :=
  Holds.modifyComponent h rfl rfl (fun _ hd => { hd with }) (Nat.succ_lt_succ h.held)

/-- An activity that is over lets go of the component, which lives on. -/
theorem Met.releaseComponent (h : c.Met g.enter w) : c.Met g (w.releaseComponent c.id) := by
  have hheld : g.activities + 1 < (w.component c.id).holders := h.held
  unfold World.releaseComponent
  dsimp only
  rw [if_neg (by omega)]
  exact Holds.modifyComponent h rfl rfl (fun _ hd => { hd with }) (Nat.lt_sub_of_add_lt hheld)

/-! ## Subscribers -/

/-- A change of who holds a subscriber, under which every watcher still has its turns. -/
theorem Holds.modifyHolders (h : c.Holds g lookup w) (g' : Stage)
    (hactivities : g'.activities = g.activities) (hedits : g'.edits = g.edits) (s : SubscriberId)
    (f : Nat → Nat)
    (hawaited : ∀ t key, w.reaction? t = some (.patch c.id key) →
      g'.pending t < (w.modifyHolders s f).subscriberHolders t) :
    c.Holds g' lookup (w.modifyHolders s f) := by
  have hreaction := w.reaction?_modifyHolders s
  refine ⟨{ h with
    held := ?held, watched := ?watched, tuned := ?tuned, awaited := ?awaited, editing := ?editing },
    ?shown, h.framed, h.valued⟩
  case held =>
    rw [hactivities]
    exact h.held
  case watched =>
    intro key cell hcell
    obtain ⟨hlt, first, rest, hsubscribers, hfirst⟩ := h.watched key cell hcell
    exact ⟨hlt, first, rest, hsubscribers, (hreaction first f).trans hfirst⟩
  case tuned =>
    intro key cell hcell t ht
    obtain ⟨reaction, hold, hsuits⟩ := h.tuned key cell hcell t ht
    exact ⟨reaction, (hreaction t f).trans hold, hsuits⟩
  case awaited =>
    intro t key ht
    exact hawaited t key ((hreaction t f).symm.trans ht)
  case editing =>
    rw [hedits]
    exact h.editing
  case shown =>
    rw [looseAt_congr hedits]
    exact h.shown

/-- A subscriber is held for a turn. -/
theorem Holds.holdSubscriber (h : c.Holds g lookup w) (s : SubscriberId) :
    c.Holds (g.await [s]) lookup (w.holdSubscriber s) := by
  refine h.modifyHolders (g.await [s]) rfl rfl s (· + 1) fun t key ht => ?_
  have hlt := h.awaited t key ht
  have hthere : (w.reaction? t).isSome = true := by
    rw [ht]
    rfl
  show g.pending t + [s].count t < (w.holdSubscriber s).subscriberHolders t
  rw [World.subscriberHolders_holdSubscriber hthere, List.count_singleton]
  by_cases hst : s = t
  · rw [if_pos hst, if_pos (beq_iff_eq.mpr hst)]
    exact Nat.succ_lt_succ hlt
  · rw [if_neg hst, if_neg fun he => hst (beq_iff_eq.mp he)]
    exact hlt

/-- Subscribers are held for their turns. -/
theorem Holds.holdSubscribers (h : c.Holds g lookup w) (ss : List SubscriberId) :
    c.Holds (g.await ss) lookup (ss.foldl World.holdSubscriber w) := by
  induction ss generalizing g w with
  | nil => exact h
  | cons s ss ih =>
    have hrest := ih (h.holdSubscriber s)
    rw [Stage.await_await] at hrest
    exact hrest

/-- A subscriber that had its turn is let go. -/
theorem Met.releaseSubscriber {s : SubscriberId} {ss : List SubscriberId}
    (h : c.Met (g.await (s :: ss)) w) : c.Met (g.await ss) (w.releaseSubscriber s) := by
  refine Holds.modifyHolders h (g.await ss) rfl rfl s (· - 1) fun t key ht => ?_
  have hlt : g.pending t + (s :: ss).count t < w.subscriberHolders t := h.awaited t key ht
  show g.pending t + ss.count t < (w.releaseSubscriber s).subscriberHolders t
  rw [World.subscriberHolders_releaseSubscriber]
  rw [List.count_cons] at hlt
  by_cases hst : s = t
  · rw [if_pos (beq_iff_eq.mpr hst)] at hlt
    rw [if_pos hst]
    omega
  · rw [if_neg fun he => hst (beq_iff_eq.mp he)] at hlt
    rw [if_neg hst]
    exact hlt

/-- A subscriber that runs a handler may be let go at any time; it is not the one that patches. -/
theorem Met.unsubscribe {s : SubscriberId} {run : κ} (h : c.Met g w)
    (hs : w.reaction? s = some (.handler run)) : c.Met g (w.releaseSubscriber s) := by
  refine Holds.modifyHolders h g rfl rfl s (· - 1) fun t key ht => ?_
  have hne : s ≠ t := by
    rintro rfl
    rw [hs] at ht
    cases ht
  show g.pending t < (w.releaseSubscriber s).subscriberHolders t
  rw [World.subscriberHolders_releaseSubscriber, if_neg hne]
  exact h.awaited t key ht

/-! ## Documents -/

theorem Wired.settles {g' : Stage} (h : c.Wired g w) (hg : g.Settles g') : c.Wired g' w := by
  refine { h with held := ?_, awaited := ?_, editing := ?_ }
  · rw [hg.activities]
    exact h.held
  · rw [hg.pending]
    exact h.awaited
  · intro event node hr
    exact h.editing event node (hg.edits _ hr)

/-- The document is replaced by one that displays the template. -/
theorem Holds.setDocument {g' : Stage} {lookup' : Lookup} {d : Document (Action κ)}
    (h : c.Holds g lookup w) (hg : g.Settles g')
    (hshown : ∀ t, c.template = some t →
      Displays d lookup' c.options.missingKey (c.looseAt g') t) (hframed : c.frame d) :
    c.Holds g' lookup' (w.setDocument c.document d) := by
  have hdocument := World.document_setDocument h.document_lt d
  have hwired := h.toWired.settles hg
  refine ⟨{ hwired with document_lt := ?_ }, ?_, ?_, h.valued⟩
  · unfold World.setDocument
    dsimp only
    rw [Array.size_setIfInBounds]
    exact h.document_lt
  · rw [hdocument]
    exact hshown
  · rw [hdocument]
    exact hframed

/-! ## Cells -/

/-- The contract with other values. -/
def withValues (c : Contract κ σ) (values : (String → Option Value) → Prop) : Contract κ σ :=
  { c with values }

/-- **Storing a value** makes the world stale at the key, and at no other. -/
theorem Met.storeValue {key : String} {cell : CellId} {value : Value}
    {values : (String → Option Value) → Prop} (h : c.Met g w)
    (hcell : c.store.cell? key = some cell)
    (hvalues : ∀ f, c.values f → values (overwritten f key value)) :
    (c.withValues values).Stale g key (w.storeValue cell value) := by
  have hlt := (h.watched key cell hcell).1
  have hvalue := World.value?_storeValue c.separate hcell hlt value
  refine ⟨w.lookup c.store, ?_, ?_⟩
  · intro k hk
    apply World.lookup_congr
    show (w.storeValue cell value).value? c.store k = w.value? c.store k
    rw [hvalue, overwritten_of_ne hk]
  refine { h with fits := { h.fits with }, watched := ?_, tuned := ?_, valued := ?_ }
  · intro k other hother
    obtain ⟨hlt', s, rest, hsubscribers, hs⟩ := h.watched k other hother
    refine ⟨?_, ?_⟩
    · rw [World.size_cells_storeValue]
      exact hlt'
    · rw [World.cell_storeValue hlt]
      by_cases he : other = cell
      · have hlive : w.isLive s = true :=
          decide_eq_true (Nat.lt_of_le_of_lt (Nat.zero_le _) (h.awaited s k hs))
        rw [if_pos he, ← he, hsubscribers, List.filter_cons_of_pos hlive]
        exact ⟨s, _, rfl, hs⟩
      · rw [if_neg he]
        exact ⟨s, rest, hsubscribers, hs⟩
  · intro k other hother t ht
    rw [World.cell_storeValue hlt] at ht
    refine h.tuned k other hother t ?_
    split at ht
    · rename_i he
      rw [he]
      exact (List.mem_filter.mp ht).1
    · exact ht
  · show values ((w.storeValue cell value).value? c.store)
    rw [hvalue]
    exact hvalues _ h.valued

/-- A handler subscribes behind the watcher of a cell. -/
theorem Met.subscribe (h : c.Met g w) {key₀ : String} {cell : CellId}
    (hkey : c.store.cell? key₀ = some cell) (run : κ) :
    c.Met g (w.subscribe cell (.handler run)) := by
  have hcell := (h.watched key₀ cell hkey).1
  have hvalue := w.value?_subscribe c.store cell (.handler run)
  have hlookup : (w.subscribe cell (.handler run)).lookup c.store = w.lookup c.store := by
    funext k
    exact World.lookup_congr (congrFun hvalue k)
  unfold Met
  rw [hlookup]
  refine { h with watched := ?_, tuned := ?_, awaited := ?_, valued := ?_ }
  · intro key other hother
    obtain ⟨hlt, s, rest, hsubscribers, hs⟩ := h.watched key other hother
    obtain ⟨rest', hrest⟩ := World.subscribers_subscribe hcell (.handler run) hsubscribers
    refine ⟨?_, s, rest', hrest, World.reaction?_subscribe_of_eq_some hs cell _⟩
    exact (World.size_cells_modifyCell _ _ _).symm ▸ hlt
  · exact h.tuned.subscribe hcell fun _ _ _ _ hpatch => by cases hpatch
  · intro s key hs
    rw [World.reaction?_subscribe] at hs
    rw [World.subscriberHolders_subscribe]
    split at hs
    · cases hs
    · rename_i hne
      rw [if_neg hne]
      exact h.awaited s key hs
  · rw [show (w.subscribe cell (.handler run)).value? c.store = w.value? c.store from hvalue]
    exact h.valued

/-! ## Events -/

/-- A new event. -/
theorem Met.addEvent (h : c.Met g w) (e : Event) : c.Met g (w.addEvent e) := by
  refine { h with editing := ?_ }
  intro event node hr
  obtain ⟨old, hold, hrest⟩ := h.editing event node hr
  refine ⟨old, ?_, hrest⟩
  have hlt := (Array.getElem?_eq_some_iff.mp hold).1
  unfold World.addEvent
  dsimp only
  rw [Array.getElem?_push, if_neg (Nat.ne_of_lt hlt)]
  exact hold

/-- An event arrives at a node. -/
theorem Met.arrive (h : c.Met g w) (event : EventId) (node : NodeId) :
    c.Met g (w.modifyEvent event fun e => { e with current := some node }) := by
  refine { h with editing := ?_ }
  intro other target hr
  obtain ⟨old, hold, htype, htarget, hcurrent⟩ := h.editing other target hr
  unfold World.IsEditing World.modifyEvent
  dsimp only
  rw [Array.getElem?_modify, hold]
  split
  · exact ⟨_, rfl, htype, htarget, rfl⟩
  · exact ⟨_, rfl, htype, htarget, hcurrent⟩

/-- An event that is no edit on its way is over. -/
theorem Met.depart (h : c.Met g w) {event : EventId} (hevent : ∀ r ∈ g.edits, r.1 ≠ event) :
    c.Met g (w.modifyEvent event fun e => { e with current := none }) := by
  refine { h with editing := ?_ }
  intro other target hr
  obtain ⟨old, hold, hrest⟩ := h.editing other target hr
  unfold World.IsEditing World.modifyEvent
  dsimp only
  rw [Array.getElem?_modify, if_neg fun he => hevent _ hr he.symm]
  exact ⟨old, hold, hrest⟩

/-! ## The caller's state -/

theorem Met.modifyHost (h : c.Met g w) {f : σ → σ} (hf : c.note (f w.host)) :
    c.Met g (w.modifyHost f) := { h with noted := hf }

end Contract

end BoundView
