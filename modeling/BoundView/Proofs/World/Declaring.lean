import BoundView.Component.Mount
import BoundView.Proofs.World.Tables
import Mathlib.Data.List.Induction

/-!
# A store is declared, and its keys are watched

Declaring data gives every key a cell of its own that nobody hears yet, with the last value that the
data have for the key. Watching a key puts a subscriber in front of its cell that patches for it.

Main statements: `makeStore_spec`, `watches_foldl`.
-/

namespace BoundView

variable {κ σ : Type} {w : World κ σ}

theorem lookup_cons_eq_ite {β : Type} (key k : String) (b : β) (entries : List (String × β)) :
    List.lookup k ((key, b) :: entries) = if k = key then some b else entries.lookup k := by
  rw [List.lookup_cons]
  by_cases hk : k = key
  · rw [if_pos hk, beq_iff_eq.mpr hk]
  · rw [if_neg hk, beq_eq_false_iff_ne.mpr hk]

/-- The keys of a store are those that have a cell. -/
theorem Store.mem_keys_iff {store : Store} {key : String} :
    key ∈ store.keys ↔ store.cell? key ≠ none := by
  unfold Store.keys Store.cell?
  rw [Ne, List.lookup_eq_none_iff, List.mem_map]
  constructor
  · rintro ⟨entry, hentry, rfl⟩ hnone
    exact absurd (hnone entry hentry) (by simp)
  · intro hsome
    by_contra hnone
    exact hsome fun entry hentry => bne_iff_ne.mpr fun he => hnone ⟨entry, hentry, he.symm⟩

/-- A key that is declared last. -/
theorem Store.cell?_append {store : Store} {key : String} (hkey : store.cell? key = none)
    (id : CellId) (k : String) :
    Store.cell? ⟨store.entries ++ [(key, id)]⟩ k = if k = key then some id else store.cell? k := by
  unfold Store.cell?
  dsimp only
  rw [List.lookup_append, lookup_cons_eq_ite, List.lookup_nil]
  by_cases hk : k = key
  · rw [if_pos hk, if_pos hk, hk, show store.entries.lookup key = none from hkey]
    rfl
  · rw [if_neg hk, if_neg hk, Option.or_none]

/-- A key that is declared last may have a cell that no other key has. -/
theorem Store.Separate.append {store : Store} (h : store.Separate) {key : String}
    (hkey : store.cell? key = none) {id : CellId} (hid : ∀ k, store.cell? k ≠ some id) :
    Store.Separate ⟨store.entries ++ [(key, id)]⟩ := by
  intro k k' cell hk hk'
  rw [cell?_append hkey] at hk hk'
  by_cases hfirst : k = key
  · rw [if_pos hfirst] at hk
    obtain rfl := Option.some.inj hk
    by_cases hsecond : k' = key
    · rw [hfirst, hsecond]
    · rw [if_neg hsecond] at hk'
      exact absurd hk' (hid k')
  · rw [if_neg hfirst] at hk
    by_cases hsecond : k' = key
    · rw [if_pos hsecond] at hk'
      obtain rfl := Option.some.inj hk'
      exact absurd hk (hid k)
    · rw [if_neg hsecond] at hk'
      exact h hk hk'

/-- **A store with the given data**, in a world in which only cells are new. -/
structure Declared (w : World κ σ) (data : List (String × Value)) (store : Store) (w' : World κ σ) :
    Prop where
  documents : w'.documents = w.documents
  events : w'.events = w.events
  subscribers : w'.subscribers = w.subscribers
  components : w'.components = w.components
  host : w'.host = w.host
  separate : store.Separate
  unheard : ∀ key cell, store.cell? key = some cell →
    cell < w'.cells.size ∧ (w'.cell cell).subscribers = []
  value : ∀ key, w'.value? store key = data.reverse.lookup key

namespace Declared

variable {data : List (String × Value)} {store : Store} {w' : World κ σ} {key : String}

/-- A repeated key is written. -/
theorem storeValue (h : Declared w data store w') {cell : CellId} (hcell : store.cell? key = some cell)
    (value : Value) : Declared w (data ++ [(key, value)]) store (w'.storeValue cell value) := by
  obtain ⟨hlt, hempty⟩ := h.unheard key cell hcell
  refine { h with unheard := ?_, value := ?_ }
  · intro k other hother
    obtain ⟨hlt', hempty'⟩ := h.unheard k other hother
    refine ⟨?_, ?_⟩
    · rw [World.size_cells_storeValue]
      exact hlt'
    · rw [World.cell_storeValue hlt]
      split
      · rw [hempty]
        rfl
      · exact hempty'
  · intro k
    rw [World.value?_storeValue h.separate hcell hlt, List.reverse_append]
    show overwritten _ key value k = List.lookup k ((key, value) :: data.reverse)
    rw [lookup_cons_eq_ite, ← h.value]
    unfold overwritten
    by_cases hk : k = key
    · rw [if_pos hk, if_pos hk, hk]
      unfold World.value?
      rw [hcell]
      rfl
    · rw [if_neg hk, if_neg hk]

/-- A new key gets a new cell. -/
theorem addCell (h : Declared w data store w') (hkey : store.cell? key = none) (value : Value) :
    Declared w (data ++ [(key, value)]) ⟨store.entries ++ [(key, w'.cells.size)]⟩
      (w'.addCell value) := by
  have hsize : (w'.addCell value).cells.size = w'.cells.size + 1 := Array.size_push _
  have hfresh : ∀ k, store.cell? k ≠ some w'.cells.size :=
    fun k hk => Nat.lt_irrefl _ (h.unheard k _ hk).1
  have hold : ∀ k cell, store.cell? k = some cell → (w'.addCell value).cell cell = w'.cell cell := by
    intro k cell hk
    rw [World.cell_addCell, if_neg (Nat.ne_of_lt (h.unheard k cell hk).1)]
  refine { h with separate := h.separate.append hkey hfresh, unheard := ?_, value := ?_ }
  · intro k cell hk
    rw [Store.cell?_append hkey] at hk
    rw [hsize]
    split at hk
    · obtain rfl := Option.some.inj hk
      rw [World.cell_addCell, if_pos rfl]
      exact ⟨Nat.lt_succ_self _, rfl⟩
    · obtain ⟨hlt, hempty⟩ := h.unheard k cell hk
      rw [hold k cell hk]
      exact ⟨Nat.lt_succ_of_lt hlt, hempty⟩
  · intro k
    rw [List.reverse_append]
    show _ = List.lookup k ((key, value) :: data.reverse)
    rw [lookup_cons_eq_ite, ← h.value]
    unfold World.value?
    rw [Store.cell?_append hkey]
    by_cases hk : k = key
    · rw [if_pos hk, if_pos hk, Option.map_some, World.cell_addCell, if_pos rfl]
    · rw [if_neg hk, if_neg hk]
      cases hcell : store.cell? k with
      | none => rfl
      | some cell => rw [Option.map_some, Option.map_some, hold k cell hcell]

end Declared

/-- One more entry is declared last. -/
theorem World.makeStore_concat (w : World κ σ) (data : List (String × Value)) (key : String)
    (value : Value) : w.makeStore (data ++ [(key, value)]) =
      (w.makeStore data).2.declare (w.makeStore data).1 key value := by
  unfold makeStore
  rw [List.foldl_append]
  rfl

/-- **A new store has the given data.** -/
theorem makeStore_spec (w : World κ σ) (data : List (String × Value)) :
    Declared w data (w.makeStore data).1 (w.makeStore data).2 := by
  induction data using List.reverseRecOn with
  | nil =>
    refine ⟨rfl, rfl, rfl, rfl, rfl, ?_, ?_, fun _ => rfl⟩
    · intro k k' cell hk
      cases hk
    · intro k cell hk
      cases hk
  | append_singleton data entry ih =>
    obtain ⟨key, value⟩ := entry
    rw [World.makeStore_concat]
    unfold World.declare
    cases hcell : (w.makeStore data).1.cell? key with
    | some cell => exact ih.storeValue hcell value
    | none => exact ih.addCell hcell value

/-! ## Watching -/

/-- **Some keys of a component are watched**, and nothing but subscribers is new. -/
structure Watches (w : World κ σ) (id : ComponentId) (done : List String) (w' : World κ σ) :
    Prop where
  documents : w'.documents = w.documents
  events : w'.events = w.events
  host : w'.host = w.host
  components : w'.components.size = w.components.size
  cells : w'.cells.size = w.cells.size
  component : ∃ watchers, w'.component id = { w.component id with watchers }
  others : ∀ other, other ≠ id → w'.component other = w.component other
  value : ∀ store, w'.value? store = w.value? store
  holders : ∀ s, (w'.reaction? s).isSome = true → w'.subscriberHolders s = 1
  first : ∀ key cell, (w.component id).store.cell? key = some cell →
    key ∉ done ∧ (w'.cell cell).subscribers = [] ∨
      ∃ s rest, (w'.cell cell).subscribers = s :: rest ∧ w'.reaction? s = some (.patch id key)
  tuned : w'.Tuned (w.component id).store

namespace Watches

variable {id : ComponentId} {done : List String} {w' : World κ σ} {key : String} {cell : CellId}

/-- A key without a cell needs no watcher. -/
theorem first_undeclared (h : Watches w id done w')
    (hkey : (w.component id).store.cell? key = none) : Watches w id (done ++ [key]) w' := by
  refine { h with first := fun k cell hcell => (h.first k cell hcell).imp_left fun hnew => ?_ }
  refine ⟨fun hmem => ?_, hnew.2⟩
  rcases List.mem_append.mp hmem with hmem | hmem
  · exact hnew.1 hmem
  · rw [List.mem_singleton.mp hmem, hkey] at hcell
    cases hcell

/-- **The watcher of a key comes first** at its cell, and the watchers of other keys stay first. -/
theorem first_subscribe (h : Watches w id done w') (hseparate : (w.component id).store.Separate)
    (hkey : (w.component id).store.cell? key = some cell) (hlt : cell < w'.cells.size) {k : String}
    {other : CellId} (hother : (w.component id).store.cell? k = some other) :
    k ∉ done ++ [key] ∧ ((w'.subscribe cell (.patch id key)).cell other).subscribers = [] ∨
      ∃ s rest, ((w'.subscribe cell (.patch id key)).cell other).subscribers = s :: rest ∧
        (w'.subscribe cell (.patch id key)).reaction? s = some (.patch id k) := by
  rcases h.first k other hother with ⟨hnew, hempty⟩ | ⟨s, rest, hfirst, hs⟩
  · rw [World.cell_subscribe hlt]
    by_cases he : other = cell
    · have hk : k = key := hseparate hkey (he ▸ hother)
      subst he hk
      refine .inr ⟨w'.subscribers.size, [], ?_, ?_⟩
      · rw [if_pos rfl]
        dsimp only
        rw [hempty]
        rfl
      · rw [World.reaction?_subscribe, if_pos rfl]
    · rw [if_neg he]
      refine .inl ⟨fun hmem => ?_, hempty⟩
      rcases List.mem_append.mp hmem with hmem | hmem
      · exact hnew hmem
      · rw [List.mem_singleton.mp hmem, hkey] at hother
        exact he (Option.some.inj hother).symm
  · obtain ⟨rest', hrest⟩ := World.subscribers_subscribe hlt (.patch id key) hfirst
    exact .inr ⟨s, rest', hrest, World.reaction?_subscribe_of_eq_some hs cell _⟩

/-- **Watching one more key.** -/
theorem watch (h : Watches w id done w') (hid : id < w.components.size)
    (hseparate : (w.component id).store.Separate)
    (hcells : ∀ key cell, (w.component id).store.cell? key = some cell → cell < w.cells.size)
    (key : String) : Watches w id (done ++ [key]) (w'.watch id key) := by
  obtain ⟨watchers, hcomponent⟩ := h.component
  have hstore : (w'.component id).store = (w.component id).store := by rw [hcomponent]
  unfold World.watch
  rw [hstore]
  cases hkey : (w.component id).store.cell? key with
  | none => exact h.first_undeclared hkey
  | some cell =>
    have hlt : cell < w'.cells.size := by
      rw [h.cells]
      exact hcells key cell hkey
    have hid' : id < (w'.subscribe cell (.patch id key)).components.size := by
      show id < w'.components.size
      rw [h.components]
      exact hid
    refine ⟨h.documents, h.events, h.host, ?_, ?_, ?_, ?_, ?_, ?_, fun k other hother =>
      h.first_subscribe hseparate hkey hlt hother, ?_⟩
    · show (Array.modify w'.components _ _).size = _
      rw [Array.size_modify, h.components]
    · exact (World.size_cells_modifyCell _ _ _).trans h.cells
    · refine ⟨watchers ++ [w'.subscribers.size], ?_⟩
      dsimp only
      rw [World.component_modifyComponent_self hid']
      rw [show (w'.subscribe cell (.patch id key)).component id = w'.component id from rfl,
        hcomponent]
    · intro other hother
      dsimp only
      rw [World.component_modifyComponent_of_ne hid' hother]
      exact h.others other hother
    · intro store
      exact (w'.value?_subscribe store cell (.patch id key)).trans (h.value store)
    · intro s hs
      have hs' : ((w'.subscribe cell (.patch id key)).reaction? s).isSome = true := hs
      show (w'.subscribe cell (.patch id key)).subscriberHolders s = 1
      rw [World.reaction?_subscribe] at hs'
      rw [World.subscriberHolders_subscribe]
      split at hs'
      · rename_i hnew
        rw [if_pos hnew]
      · rename_i hold
        rw [if_neg hold]
        exact h.holders s hs'
    · refine h.tuned.subscribe hlt fun k hk other key' hpatch => ?_
      cases hpatch
      exact hseparate hk hkey

end Watches

/-- **All keys of a list are watched**, one after the other. -/
theorem watches_foldl {id : ComponentId} (hid : id < w.components.size)
    (hseparate : (w.component id).store.Separate)
    (hunheard : ∀ key cell, (w.component id).store.cell? key = some cell →
      cell < w.cells.size ∧ (w.cell cell).subscribers = [])
    (hsubscribers : w.subscribers.size = 0) (keys : List String) :
    Watches w id keys (keys.foldl (fun w key => w.watch id key) w) := by
  induction keys using List.reverseRecOn with
  | nil =>
    refine ⟨rfl, rfl, rfl, rfl, rfl, ⟨_, rfl⟩, fun _ _ => rfl, fun _ => rfl, ?_, ?_, ?_⟩
    · intro s hs
      unfold World.reaction? at hs
      rw [List.foldl_nil, Array.getElem?_eq_none (by omega)] at hs
      cases hs
    · exact fun key cell hcell => .inl ⟨List.not_mem_nil, (hunheard key cell hcell).2⟩
    · intro key cell hcell s hs
      rw [List.foldl_nil, (hunheard key cell hcell).2] at hs
      cases hs
  | append_singleton keys key ih =>
    rw [List.foldl_append]
    exact ih.watch hid hseparate (fun k cell hcell => (hunheard k cell hcell).1) key

/-! ## A new component -/

namespace World

/-- A component as it is when it is added. -/
def added (w : World κ σ) (document : DocumentId) (root : Dom.NodeId) (config : Config κ) :
    Component κ :=
  ⟨document, root, config.el, (w.makeStore config.data).1, config.methods, none, config.options, 0,
    [], 1⟩

/-- The world with a store for a component and the component, before its keys are watched. -/
def withAdded (w : World κ σ) (document : DocumentId) (root : Dom.NodeId) (config : Config κ) :
    World κ σ :=
  { (w.makeStore config.data).2 with
    components := (w.makeStore config.data).2.components.push (w.added document root config) }

variable {document : DocumentId} {root : Dom.NodeId} {config : Config κ}

theorem size_components_withAdded :
    (w.withAdded document root config).components.size = w.components.size + 1 := by
  unfold withAdded
  dsimp only
  rw [Array.size_push, (makeStore_spec w config.data).components]

theorem component_withAdded (id : ComponentId) :
    (w.withAdded document root config).component id =
      if id = w.components.size then w.added document root config else w.component id := by
  have hcomponents := (makeStore_spec w config.data).components
  refine (component_push (w := (w.makeStore config.data).2) _ id).trans ?_
  unfold component
  rw [hcomponents]

/-- **The keys of a component that is added are watched.** -/
theorem watches_addComponent (hsubscribers : w.subscribers.size = 0) (document : DocumentId)
    (root : Dom.NodeId) (config : Config κ) :
    Watches (w.withAdded document root config) w.components.size (w.makeStore config.data).1.keys
      (w.addComponent document root config) := by
  have hdeclared := makeStore_spec w config.data
  have hthis : (w.withAdded document root config).component w.components.size =
      w.added document root config := by
    rw [component_withAdded, if_pos rfl]
  refine watches_foldl ?_ ?_ ?_ ?_ _
  · rw [size_components_withAdded]
    exact Nat.lt_succ_self _
  · rw [hthis]
    exact hdeclared.separate
  · rw [hthis]
    exact hdeclared.unheard
  · show (w.makeStore config.data).2.subscribers.size = 0
    rw [hdeclared.subscribers]
    exact hsubscribers

end World

end BoundView
