import BoundView.Proofs.Component.Touching
import BoundView.Proofs.Rendering.Freshness
import BoundView.Proofs.World.Durable
import Mathlib.Algebra.GroupWithZero.Nat

/-!
# The audit of a component

A component counts its scans. An **audit** goes through the same run and counts something else: the writes
that the cells of the component accept, and the requests for a scan that user code notes. Once the template
is compiled the two counts differ by a constant. They are compared wherever user code looks at the world,
so what happens between the moment when a value is stored and the moment when the watcher of its key has
scanned is one step: the watcher of a key comes first in every round, and user code comes after it.

The audit also looks at what the component has rendered. As long as texts and live values are left to
components, it is fresh, but for elements that a person is editing.

Main statements: the laws of `World.Audited`; `Audited.storeValue` and `Audited.refreshed`, the two halves
of an accepted write.
-/

namespace BoundView

open BoundView.Dom (Document NodeId)
open BoundView.Dom.Document (Retains SameListeners)
open BoundView.Interpolation (Lookup)

variable {κ σ : Type}

/-- **An audit of a component.** -/
structure Audit (κ σ : Type) where
  id : ComponentId
  /-- What stays of the component. -/
  charter : Component κ
  /-- The writes and requests that are not counted as scans. -/
  base : Nat
  /-- The requests for a scan that user code has noted. -/
  requests : σ → Nat
  /-- The events that user code has noted to be out of place. -/
  astray : σ → EventId → Prop
  /-- Texts and live values are left to components. -/
  plain : Prop
  keys : charter.store.keys.Nodup
  separate : charter.store.Separate

/-- The audit of a component that owes some scans. -/
def Audit.owing (a : Audit κ σ) (scans : Nat) : Audit κ σ := { a with base := a.base + scans }

/-- **A node that is bound to a key**: a rendered element takes input, and the key is declared. -/
structure Audit.Binds (a : Audit κ σ) (key : String) (node : NodeId) : Prop where
  declared : a.charter.store.contains key = true
  affected : ∃ t, a.charter.template = some t ∧
    ∃ b ∈ t.affected key a.charter.options.syncInputs, b.kind = 1 ∧ b.node = node

/-! ## Accepted writes -/

/-- The cells of a store, in the order of their keys. -/
def Store.cells (store : Store) : List CellId := store.entries.map Prod.snd

theorem Store.cell?_eq_some_iff {store : Store} (hkeys : store.keys.Nodup) {key : String}
    {cell : CellId} : store.cell? key = some cell ↔ (key, cell) ∈ store.entries := by
  obtain ⟨entries⟩ := store
  unfold Store.cell?
  dsimp only
  induction entries with
  | nil => simp
  | cons entry rest ih =>
    obtain ⟨k, c⟩ := entry
    obtain ⟨hk, hrest⟩ := List.nodup_cons.mp (show (k :: rest.map Prod.fst).Nodup from hkeys)
    rw [lookup_cons_eq_ite, List.mem_cons]
    split
    · rename_i he
      subst he
      rw [Option.some_inj]
      constructor
      · rintro rfl
        exact .inl rfl
      · rintro (he | hmem)
        · cases he
          rfl
        · exact absurd (List.mem_map_of_mem (f := Prod.fst) hmem) hk
    · rename_i hne
      rw [ih hrest]
      constructor
      · exact .inr
      · rintro (he | hmem)
        · cases he
          exact absurd rfl hne
        · exact hmem

theorem Store.mem_cells_iff {store : Store} (hkeys : store.keys.Nodup) {cell : CellId} :
    cell ∈ store.cells ↔ ∃ key, store.cell? key = some cell := by
  unfold Store.cells
  rw [List.mem_map]
  constructor
  · rintro ⟨⟨key, c⟩, hmem, rfl⟩
    exact ⟨key, (cell?_eq_some_iff hkeys).mpr hmem⟩
  · rintro ⟨key, hkey⟩
    exact ⟨(key, cell), (cell?_eq_some_iff hkeys).mp hkey, rfl⟩

theorem Store.nodup_cells {store : Store} (hkeys : store.keys.Nodup) (hseparate : store.Separate) :
    store.cells.Nodup := by
  refine List.Nodup.map_on ?_ hkeys.of_map
  rintro ⟨key, cell⟩ hmem ⟨key', cell'⟩ hmem' (rfl : cell = cell')
  obtain rfl := hseparate ((cell?_eq_some_iff hkeys).mpr hmem) ((cell?_eq_some_iff hkeys).mpr hmem')
  rfl

namespace World

/-- **The writes that the cells of a store have accepted.** -/
def writes (w : World κ σ) (store : Store) : Nat :=
  (store.cells.map fun cell => (w.cell cell).version).sum

theorem writes_congr {w w' : World κ σ} {store : Store}
    (h : ∀ cell ∈ store.cells, (w'.cell cell).version = (w.cell cell).version) :
    w'.writes store = w.writes store := by
  unfold writes
  rw [List.map_congr_left h]

/-- One of different numbers grows by one. -/
theorem sum_map_succ {l : List CellId} (hnodup : l.Nodup) {cell : CellId} (hcell : cell ∈ l)
    {f g : CellId → Nat} (hself : g cell = f cell + 1) (hothers : ∀ c, c ≠ cell → g c = f c) :
    (l.map g).sum = (l.map f).sum + 1 := by
  induction l with
  | nil => cases hcell
  | cons c l ih =>
    obtain ⟨hc, hl⟩ := List.nodup_cons.mp hnodup
    rw [List.map_cons, List.map_cons, List.sum_cons, List.sum_cons]
    rcases List.mem_cons.mp hcell with rfl | hmem
    · have hsame : l.map g = l.map f :=
        List.map_congr_left fun c hmem => hothers c fun he => hc (he ▸ hmem)
      rw [hself, hsame]
      omega
    · rw [ih hl hmem, hothers c fun he => hc (he ▸ hmem)]
      omega

/-- **Storing a value** in a cell of a store is an accepted write. -/
theorem writes_storeValue {w : World κ σ} {store : Store} (hnodup : store.cells.Nodup)
    {cell : CellId} (hcell : cell ∈ store.cells) (hlt : cell < w.cells.size) (value : Value) :
    (w.storeValue cell value).writes store = w.writes store + 1 := by
  refine sum_map_succ hnodup hcell ?_ fun c hc => ?_
  · rw [cell_storeValue hlt, if_pos rfl]
  · rw [cell_storeValue hlt, if_neg hc]

end World

/-! ## Listeners of bound elements -/

/-- **Bound elements carry edits**: an edit of a rendered element that is bound to a key has a listener
that carries it there. -/
def Template.Listens (t : Template) (inputs : Bool) (id : ComponentId) (d : Document (Action κ)) :
    Prop :=
  ∀ key, ∀ a ∈ t.affected key inputs, a.kind = 1 →
    Action.model id key ∈ (d.listenersFor a.node "input").map (·.action)

theorem Template.Listens.of_sameListeners {t : Template} {inputs : Bool} {id : ComponentId}
    {d e : Document (Action κ)} (h : t.Listens inputs id d) (hsame : SameListeners d e) :
    t.Listens inputs id e := by
  intro key a ha hkind
  rw [hsame.listenersFor]
  exact h key a ha hkind

theorem Template.Listens.retains {t : Template} {inputs : Bool} {id : ComponentId}
    {d e : Document (Action κ)} (h : t.Listens inputs id d) (hretains : Retains d e) :
    t.Listens inputs id e := by
  intro key a ha hkind
  obtain ⟨l, hl, haction⟩ := List.mem_map.mp (h key a ha hkind)
  exact List.mem_map.mpr ⟨l, hretains.mem_listenersFor hl, haction⟩

/-! ## Audited worlds -/

namespace World

/-- **A world that stands an audit**, in which each subscriber waits for so many turns. Some nodes are
exempt, and what is rendered may be that of another lookup. -/
structure Audited (w : World κ σ) (a : Audit κ σ) (pending : SubscriberId → Nat)
    (exempt : NodeId → Prop) (lookup : Lookup) : Prop where
  there : a.id < w.components.size
  charter : (w.component a.id).charter = a.charter
  /-- The watcher of a key comes first. -/
  leads : w.isAlive a.id = true → ∀ key cell, a.charter.store.cell? key = some cell →
    ∃ s rest, (w.cell cell).subscribers = s :: rest ∧ w.reaction? s = some (.patch a.id key)
  /-- No watcher of the component waits for a turn. -/
  rested : w.isAlive a.id = true → ∀ s key, w.reaction? s = some (.patch a.id key) → pending s = 0
  unscanned : a.charter.template = none → (w.component a.id).scans = 0
  tally : w.isAlive a.id = true → a.charter.template ≠ none →
    (w.component a.id).scans + a.base = w.writes a.charter.store + a.requests w.host
  listens : a.plain → ∀ t, a.charter.template = some t →
    t.Listens a.charter.options.syncInputs a.id (w.document a.charter.document)
  fresh : a.plain → w.isAlive a.id = true → ∀ t, a.charter.template = some t →
    t.Fresh a.charter.options.syncInputs (fun key => a.charter.store.contains key = true) lookup
      a.charter.options.missingKey exempt (w.document a.charter.document)

namespace Audited

variable {w : World κ σ} {note : σ → Prop} {a : Audit κ σ} {pending pending' : SubscriberId → Nat}
  {exempt exempt' : NodeId → Prop} {lookup : Lookup}

/-! ## Reading the charter -/

theorem store (h : w.Audited a pending exempt lookup) :
    (w.component a.id).store = a.charter.store := by
  rw [← h.charter]
  rfl

theorem document (h : w.Audited a pending exempt lookup) :
    (w.component a.id).document = a.charter.document := by
  rw [← h.charter]
  rfl

theorem options (h : w.Audited a pending exempt lookup) :
    (w.component a.id).options = a.charter.options := by
  rw [← h.charter]
  rfl

theorem template (h : w.Audited a pending exempt lookup) :
    (w.component a.id).template = a.charter.template := by
  rw [← h.charter]
  rfl

theorem document_lt (h : w.Audited a pending exempt lookup) (hw : w.Orderly note pending []) :
    a.charter.document < w.documents.size :=
  h.document ▸ hw.document_lt a.id h.there

theorem housed (h : w.Audited a pending exempt lookup) (hw : w.Orderly note pending [])
    {t : Template} (ht : a.charter.template = some t) :
    t.Housed (w.document a.charter.document) :=
  h.document ▸ hw.housed a.id t (h.template.trans ht)

theorem cell_lt (h : w.Audited a pending exempt lookup) (hw : w.Orderly note pending [])
    {key : String} {cell : CellId} (hcell : a.charter.store.cell? key = some cell) :
    cell < w.cells.size :=
  hw.cell_lt a.id key cell (h.store ▸ hcell)

/-- More nodes may be exempt, and nodes that are bound to no key need not be. -/
theorem exempting (h : w.Audited a pending exempt lookup)
    (hexempt : ∀ node, exempt node → exempt' node ∨ (a.plain → ∀ key, ¬ a.Binds key node)) :
    w.Audited a pending exempt' lookup :=
  { h with
    fresh := fun hplain halive t ht key hkey b hb hfirm =>
      h.fresh hplain halive t ht key hkey b hb fun hkind hold => by
        rcases hexempt b.node hold with hnew | hfree
        · exact hfirm hkind hnew
        · exact hfree hplain key ⟨hkey, t, ht, b, hb, hkind, rfl⟩ }

theorem mono (h : w.Audited a pending exempt lookup)
    (hexempt : ∀ node, exempt node → exempt' node) : w.Audited a pending exempt' lookup :=
  h.exempting fun node hnode => .inl (hexempt node hnode)

/-! ## Edits that the audit does not read -/

theorem withTraces (h : w.Audited a pending exempt lookup) (traces : Array Trace) :
    ({ w with traces } : World κ σ).Audited a pending exempt lookup := { h with }

theorem withEvents (h : w.Audited a pending exempt lookup) (events : Array Event) :
    ({ w with events } : World κ σ).Audited a pending exempt lookup := { h with }

/-- Each request that is noted is owed. -/
theorem modifyHost (h : w.Audited a pending exempt lookup) {f : σ → σ} {scans : Nat}
    (hf : a.requests (f w.host) = a.requests w.host + scans) :
    (w.modifyHost f).Audited (a.owing scans) pending exempt lookup :=
  { h with
    tally := fun halive ht => by
      have htally := h.tally halive ht
      show (w.component a.id).scans + (a.base + scans) =
        w.writes a.charter.store + a.requests (f w.host)
      omega }

/-! ## Documents -/

/-- There are more documents. -/
theorem pushDocument (h : w.Audited a pending exempt lookup) (hw : w.Orderly note pending [])
    (d : Document (Action κ)) :
    ({ w with documents := w.documents.push d } : World κ σ).Audited a pending exempt lookup := by
  have hsame : ({ w with documents := w.documents.push d } : World κ σ).document a.charter.document =
      w.document a.charter.document := by
    unfold World.document
    dsimp only
    rw [Array.getD_eq_getD_getElem?, Array.getElem?_push, if_neg (Nat.ne_of_lt (h.document_lt hw)),
      Array.getD_eq_getD_getElem?]
  exact { h with
    listens := fun hplain t ht => by
      rw [hsame]
      exact h.listens hplain t ht
    fresh := fun hplain halive t ht => by
      rw [hsame]
      exact h.fresh hplain halive t ht }

/-- A document is replaced. If it is that of the component, it has to be shown what becomes of what is
rendered. -/
theorem setDocument (h : w.Audited a pending exempt lookup) (hw : w.Orderly note pending [])
    {id : DocumentId} {d : Document (Action κ)} (hexempt : ∀ node, exempt node → exempt' node)
    (hself : a.plain → id = a.charter.document → ∀ t, a.charter.template = some t →
      (t.Listens a.charter.options.syncInputs a.id (w.document id) →
          t.Listens a.charter.options.syncInputs a.id d) ∧
        (w.isAlive a.id = true →
          t.Fresh a.charter.options.syncInputs (fun key => a.charter.store.contains key = true) lookup
            a.charter.options.missingKey exempt (w.document id) →
          t.Fresh a.charter.options.syncInputs (fun key => a.charter.store.contains key = true) lookup
            a.charter.options.missingKey exempt' d)) :
    (w.setDocument id d).Audited a pending exempt' lookup := by
  by_cases hid : id = a.charter.document
  · subst hid
    have hdocument := document_setDocument (h.document_lt hw) d
    exact { h with
      listens := fun hplain t ht => by
        rw [hdocument]
        exact (hself hplain rfl t ht).1 (h.listens hplain t ht)
      fresh := fun hplain halive t ht => by
        rw [hdocument]
        exact (hself hplain rfl t ht).2 halive (h.fresh hplain halive t ht) }
  · have hdocument := document_setDocument_of_ne (w := w) (fun he => hid he.symm) d
    exact { h with
      listens := fun hplain t ht => by
        rw [hdocument]
        exact h.listens hplain t ht
      fresh := fun hplain halive t ht => by
        rw [hdocument]
        exact (h.fresh hplain halive t ht).mono hexempt }

/-- A document that retains what its nodes hold and hear. -/
theorem retain (h : w.Audited a pending exempt lookup) (hw : w.Orderly note pending [])
    {id : DocumentId} {d : Document (Action κ)} (hretains : a.plain → Retains (w.document id) d) :
    (w.setDocument id d).Audited a pending exempt lookup := by
  refine h.setDocument hw (fun _ he => he) fun hplain hid t ht => ?_
  subst hid
  exact ⟨fun hlistens => hlistens.retains (hretains hplain),
    fun _ hfresh => hfresh.retains (h.housed hw ht) (hretains hplain)⟩

/-! ## Cells -/

/-- The cells of the component stay as they are. -/
theorem withCells (h : w.Audited a pending exempt lookup) {cells : Array Cell}
    (hsame : ∀ key cell, a.charter.store.cell? key = some cell →
      ({ w with cells } : World κ σ).cell cell = w.cell cell) :
    ({ w with cells } : World κ σ).Audited a pending exempt lookup :=
  { h with
    leads := fun halive key cell hcell => by
      rw [hsame key cell hcell]
      exact h.leads halive key cell hcell
    tally := fun halive ht => by
      rw [writes_congr fun cell hmem => ?_]
      · exact h.tally halive ht
      · obtain ⟨key, hkey⟩ := (Store.mem_cells_iff a.keys).mp hmem
        rw [hsame key cell hkey] }

/-- **A value is stored** in a cell of another. -/
theorem storeOther (h : w.Audited a pending exempt lookup) {cell : CellId}
    (hcell : ∀ key, a.charter.store.cell? key ≠ some cell) (value : Value) :
    (w.storeValue cell value).Audited a pending exempt lookup := by
  refine h.withCells fun key other hother => ?_
  show (w.storeValue cell value).cell other = w.cell other
  rcases Nat.lt_or_ge cell w.cells.size with hlt | hge
  · have hne : other ≠ cell := by
      rintro rfl
      exact hcell key hother
    rw [cell_storeValue hlt, if_neg hne]
  · rw [storeValue_of_size_le hge]

/-- **A value is stored** in a cell of the component: a scan is owed for it. -/
theorem storeValue (h : w.Audited a pending exempt lookup) (hw : w.Orderly note pending [])
    {key : String} {cell : CellId} (hcell : a.charter.store.cell? key = some cell) (value : Value) :
    (w.storeValue cell value).Audited (a.owing 1) pending exempt lookup := by
  have hlt := h.cell_lt hw hcell
  have hmem : cell ∈ a.charter.store.cells := (Store.mem_cells_iff a.keys).mpr ⟨key, hcell⟩
  refine { h with leads := fun halive k other hother => ?_, tally := fun halive ht => ?_ }
  · obtain ⟨s, rest, hsubscribers, hs⟩ := h.leads halive k other hother
    rw [cell_storeValue hlt]
    split
    · rename_i he
      subst he
      have hlive : w.isLive s = true :=
        decide_eq_true (Nat.lt_of_le_of_lt (Nat.zero_le _) (hw.held s a.id k halive hs))
      exact ⟨s, rest.filter w.isLive, by rw [hsubscribers, List.filter_cons_of_pos hlive], hs⟩
    · exact ⟨s, rest, hsubscribers, hs⟩
  · have htally := h.tally halive ht
    have hwrites := writes_storeValue (Store.nodup_cells a.keys a.separate) hmem hlt value
    show (w.component a.id).scans + (a.base + 1) =
      (w.storeValue cell value).writes a.charter.store + a.requests w.host
    omega

/-! ## Subscribers -/

/-- Who holds subscribers may change, and who waits for turns, as long as the watchers of the component
do not wait. -/
theorem withSubscribers (h : w.Audited a pending exempt lookup)
    {subscribers : Array (Subscriber κ)}
    (hreaction : ∀ s, ({ w with subscribers } : World κ σ).reaction? s = w.reaction? s)
    (hrested : w.isAlive a.id = true → ∀ s key, w.reaction? s = some (.patch a.id key) →
      pending' s = 0) :
    ({ w with subscribers } : World κ σ).Audited a pending' exempt lookup := by
  have hreaction' : ({ w with subscribers } : World κ σ).reaction? = w.reaction? := funext hreaction
  refine { h with leads := ?_, rested := ?_ }
  · rw [hreaction']
    exact h.leads
  · rw [hreaction']
    exact hrested

/-- A subscriber that runs a handler comes after the watcher. -/
theorem subscribe (h : w.Audited a pending exempt lookup) {cell : CellId}
    (hlt : cell < w.cells.size) (run : κ) :
    (w.subscribe cell (.handler run)).Audited a pending exempt lookup := by
  refine { h with leads := fun halive key other hother => ?_, rested := fun halive s key hs => ?_
                  tally := fun halive ht => ?_ }
  · obtain ⟨s, rest, hsubscribers, hs⟩ := h.leads halive key other hother
    obtain ⟨rest', hsubscribers'⟩ := subscribers_subscribe hlt (.handler run) hsubscribers
    exact ⟨s, rest', hsubscribers', reaction?_subscribe_of_eq_some hs cell _⟩
  · rcases reaction?_subscribe_cases hs with ⟨_, he⟩ | hs
    · cases he
    · exact h.rested halive s key hs
  · rw [writes_congr (w := w) fun other _ => ?_]
    · exact h.tally halive ht
    · rw [cell_subscribe hlt]
      split
      · rename_i he
        rw [he]
      · rfl

/-! ## Components -/

/-- Other components may change, and of this one who holds it and its watchers. -/
theorem withComponents (h : w.Audited a pending exempt lookup) {components : Array (Component κ)}
    (hsize : w.components.size ≤ components.size)
    (hcomponent : ∃ watchers holders, ({ w with components } : World κ σ).component a.id =
      { w.component a.id with watchers, holders })
    (halive : ({ w with components } : World κ σ).isAlive a.id = true → w.isAlive a.id = true) :
    ({ w with components } : World κ σ).Audited a pending exempt lookup := by
  obtain ⟨watchers, holders, hcomponent⟩ := hcomponent
  refine ⟨Nat.lt_of_lt_of_le h.there hsize, ?_, fun hnow => h.leads (halive hnow),
    fun hnow => h.rested (halive hnow), fun ht => ?_, fun hnow ht => ?_, h.listens,
    fun hplain hnow => h.fresh hplain (halive hnow)⟩
  · rw [hcomponent, ← h.charter]
    rfl
  · rw [hcomponent]
    exact h.unscanned ht
  · rw [hcomponent]
    exact h.tally (halive hnow) ht

theorem modifyOther (h : w.Audited a pending exempt lookup) {id : ComponentId} (hid : a.id ≠ id)
    (f : Component κ → Component κ) : (w.modifyComponent id f).Audited a pending exempt lookup := by
  rcases Nat.lt_or_ge id w.components.size with hlt | hge
  · have hsame : (w.modifyComponent id f).component a.id = w.component a.id :=
      component_modifyComponent_of_ne hlt hid f
    refine h.withComponents (Nat.le_of_eq Array.size_modify.symm) ⟨_, _, hsame⟩ fun hnow => ?_
    have halive : (w.modifyComponent id f).isAlive a.id = w.isAlive a.id := by
      unfold World.isAlive
      rw [hsame]
    exact halive ▸ hnow
  · rw [modifyComponent_of_size_le hge]
    exact h

/-- A change of who holds a component, under which a dead one does not come to life. -/
theorem modifyHolders (h : w.Audited a pending exempt lookup) (id : ComponentId) {f : Nat → Nat}
    (hf : 0 < f (w.component id).holders → 0 < (w.component id).holders) :
    (w.modifyComponent id fun c => { c with holders := f c.holders }).Audited a pending exempt
      lookup := by
  by_cases hid : a.id = id
  · subst hid
    have hsame := component_modifyComponent_self h.there fun c => { c with holders := f c.holders }
    refine h.withComponents (Nat.le_of_eq Array.size_modify.symm) ⟨_, _, hsame⟩ fun hnow => ?_
    have hpos : 0 < ((w.modifyComponent a.id fun c =>
        { c with holders := f c.holders }).component a.id).holders := of_decide_eq_true hnow
    rw [hsame] at hpos
    exact decide_eq_true (hf hpos)
  · exact h.modifyOther hid _

theorem holdComponent (h : w.Audited a pending exempt lookup) {id : ComponentId}
    (halive : w.isAlive id = true) : (w.holdComponent id).Audited a pending exempt lookup :=
  h.modifyHolders id fun _ => of_decide_eq_true halive

/-- **Letting go of a component**, be it this one or another. -/
theorem releaseComponent (h : w.Audited a pending exempt lookup) (id : ComponentId) :
    (w.releaseComponent id).Audited a pending exempt lookup := by
  have hreleased := h.modifyHolders id (f := (· - 1))
    fun hpos => Nat.lt_of_lt_of_le hpos (Nat.sub_le _ _)
  have hall : ∀ (ss : List SubscriberId) (v : World κ σ), v.Audited a pending exempt lookup →
      (ss.foldl World.releaseSubscriber v).Audited a pending exempt lookup := by
    intro ss
    induction ss with
    | nil => exact fun _ hv => hv
    | cons s ss ih =>
      exact fun v hv => ih _ (hv.withSubscribers (v.reaction?_releaseSubscriber s) hv.rested)
  unfold World.releaseComponent
  dsimp only
  split
  · exact hall _ _ hreleased
  · exact hreleased

/-! ## Scans -/

/-- **A scan for a key** pays what is owed for it and brings what is rendered up to date: if it was fresh
under a lookup that differs at this key at most, it is fresh now, and the nodes that are bound to the key
are exempt no more. -/
theorem refreshed (h : w.Audited (a.owing 1) pending exempt lookup) (hw : w.Orderly note pending [])
    {t : Template} (ht : a.charter.template = some t) {key : String}
    (hagree : ∀ k, k ≠ key → w.lookup a.charter.store k = lookup k)
    (hexempt : ∀ node, exempt node → exempt' node ∨
      node ∈ (t.affected key a.charter.options.syncInputs).map Affected.node) :
    (w.refreshed a.id t key).Audited a pending exempt' (w.lookup a.charter.store) := by
  have hlt : a.charter.document < w.documents.size := h.document_lt hw
  have hhoused : t.Housed (w.document a.charter.document) := h.housed hw ht
  have hpatches := (hhoused.patches (w.lookup a.charter.store) a.charter.options.missingKey key
    a.charter.options.syncInputs).2
  have hcomponent : (w.refreshed a.id t key).component a.id =
      { w.component a.id with scans := (w.component a.id).scans + 1 } :=
    component_modifyComponent_self h.there _
  have halive : (w.refreshed a.id t key).isAlive a.id = w.isAlive a.id := by
    unfold World.isAlive
    rw [hcomponent]
  have hdocument : (w.refreshed a.id t key).document a.charter.document =
      (patch (w.lookup a.charter.store) a.charter.options.missingKey
        (w.document a.charter.document)
        (t.affected key a.charter.options.syncInputs)).document := by
    have hstore : (w.component a.id).store = a.charter.store := h.store
    have hoptions : (w.component a.id).options = a.charter.options := h.options
    have hown : (w.component a.id).document = a.charter.document := h.document
    unfold World.refreshed World.patched
    rw [hown, hstore, hoptions]
    exact document_setDocument (w := w.modifyComponent a.id _) hlt _
  refine ⟨?_, ?_, ?_, ?_, fun hnone => ?_, fun hnow _ => ?_, fun hplain t' ht' => ?_,
    fun hplain hnow t' ht' => ?_⟩
  · exact Nat.lt_of_lt_of_eq h.there Array.size_modify.symm
  · rw [hcomponent]
    exact h.charter
  · rw [halive]
    exact h.leads
  · rw [halive]
    exact h.rested
  · rw [ht] at hnone
    cases hnone
  · have htally : (w.component a.id).scans + (a.base + 1) =
        w.writes a.charter.store + a.requests w.host :=
      h.tally (halive ▸ hnow) fun hnone => Option.some_ne_none t (ht.symm.trans hnone)
    rw [hcomponent]
    show (w.component a.id).scans + 1 + a.base = w.writes a.charter.store + a.requests w.host
    omega
  · obtain rfl := Option.some.inj (ht.symm.trans ht')
    rw [hdocument]
    exact (h.listens hplain t ht).of_sameListeners hpatches.listeners
  · obtain rfl := Option.some.inj (ht.symm.trans ht')
    rw [hdocument]
    exact (h.fresh hplain (halive ▸ hnow) t ht).patch hhoused hagree hexempt

/-- **A scan of another component** touches nothing that this one has rendered. -/
theorem refreshedOther (h : w.Audited a pending exempt lookup) (hw : w.Orderly note pending [])
    {id : ComponentId} (hid : a.id ≠ id) {t' : Template} (ht' : (w.component id).template = some t')
    (key : String) : (w.refreshed id t' key).Audited a pending exempt lookup := by
  have hpatches := ((hw.housed id t' ht').patches (w.lookup (w.component id).store)
    (w.component id).options.missingKey key (w.component id).options.syncInputs).2
  have hscanned : (w.modifyComponent id fun c => { c with scans := c.scans + 1 }).Orderly note
      pending [] :=
    hw.modifyComponent rfl rfl (fun hpos => hpos) (hw.watchers id) (hw.housed id) (hw.apart id)
  refine (h.modifyOther hid _).setDocument hscanned (fun _ he => he) fun _ hdocument t ht =>
    ⟨fun hlistens => hlistens.of_sameListeners hpatches.listeners, fun _ hfresh =>
      hfresh.of_handles fun node hnode => hpatches.others node fun hmem => ?_⟩
  have hdisjoint := hw.apart a.id id t t' (Ne.symm hid) (h.template.trans ht) ht'
    (hdocument.trans h.document.symm)
  exact hdisjoint hnode ((sublist_affected key _ t').subset hmem)

end Audited

end World

end BoundView
