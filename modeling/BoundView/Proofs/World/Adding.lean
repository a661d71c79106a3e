import BoundView.Proofs.World.Declaring
import BoundView.Proofs.World.Orderly

/-!
# A new component keeps the world orderly

A new store takes new cells, one for each of its keys, so no other component has them. A component that
is added has such a store and nothing rendered; then its keys are watched one after the other, and once
all of them are, the world is orderly again.

Main statement: `Orderly.addComponent`.
-/

namespace BoundView

variable {κ σ : Type} {w : World κ σ}

/-! ## Stores -/

namespace World

/-- **A store of new cells**, and what else there was. -/
structure Founded (w : World κ σ) (store : Store) (w' : World κ σ) : Prop where
  nodup : store.keys.Nodup
  size_le : w.cells.size ≤ w'.cells.size
  fresh : ∀ key cell, store.cell? key = some cell → w.cells.size ≤ cell
  orderly : ∀ (note : σ → Prop) (pending : SubscriberId → Nat)
    (unwatched : List (ComponentId × String)),
      w.Orderly note pending unwatched → w'.Orderly note pending unwatched

theorem Founded.declare {store : Store} {w' : World κ σ} (h : w.Founded store w') (key : String)
    (value : Value) : w.Founded (w'.declare store key value).1 (w'.declare store key value).2 := by
  unfold World.declare
  cases hkey : store.cell? key with
  | some cell =>
    refine ⟨h.nodup, ?_, h.fresh, fun note pending unwatched hw =>
      (h.orderly note pending unwatched hw).storeValue cell value⟩
    rw [size_cells_storeValue]
    exact h.size_le
  | none =>
    refine ⟨?_, ?_, ?_, fun note pending unwatched hw =>
      (h.orderly note pending unwatched hw).addCell value⟩
    · show (store.entries ++ [(key, w'.cells.size)]).map Prod.fst |>.Nodup
      rw [List.map_append]
      refine List.nodup_append'.mpr ⟨h.nodup, List.nodup_singleton _, fun k hk hnew => ?_⟩
      rw [List.mem_singleton.mp hnew] at hk
      exact Store.mem_keys_iff.mp hk hkey
    · show _ ≤ (w'.cells.push _).size
      rw [Array.size_push]
      exact Nat.le_succ_of_le h.size_le
    · intro k cell hk
      rw [Store.cell?_append hkey] at hk
      split at hk
      · obtain rfl := Option.some.inj hk
        exact h.size_le
      · exact h.fresh k cell hk

/-- **Making a store** founds it. -/
theorem founded_makeStore (w : World κ σ) (data : List (String × Value)) :
    w.Founded (w.makeStore data).1 (w.makeStore data).2 := by
  induction data using List.reverseRecOn with
  | nil => exact ⟨List.nodup_nil, Nat.le_refl _, fun _ _ hk => absurd hk (Option.some_ne_none _).symm,
      fun _ _ _ hw => hw⟩
  | append_singleton data entry ih =>
    obtain ⟨key, value⟩ := entry
    rw [makeStore_concat]
    exact ih.declare key value

/-- Declaring a key writes to no cell but that of the store. -/
theorem cell_declare (w : World κ σ) {store : Store} {n : Nat} (hn : n ≤ w.cells.size)
    (hstore : ∀ key cell, store.cell? key = some cell → n ≤ cell ∧ cell < w.cells.size) (key : String)
    (value : Value) {cell : CellId} (hcell : cell < n) :
    (w.declare store key value).2.cell cell = w.cell cell := by
  unfold declare
  cases hkey : store.cell? key with
  | some other =>
    obtain ⟨hge, hlt⟩ := hstore key other hkey
    dsimp only
    rw [cell_storeValue hlt, if_neg (Nat.ne_of_lt (Nat.lt_of_lt_of_le hcell hge))]
  | none =>
    dsimp only
    rw [cell_addCell, if_neg (Nat.ne_of_lt (Nat.lt_of_lt_of_le hcell hn))]

/-- **Making a store** leaves the cells that were there. -/
theorem cell_makeStore (w : World κ σ) (data : List (String × Value)) {cell : CellId}
    (hcell : cell < w.cells.size) : (w.makeStore data).2.cell cell = w.cell cell := by
  induction data using List.reverseRecOn with
  | nil => rfl
  | append_singleton data entry ih =>
    obtain ⟨key, value⟩ := entry
    have hfounded := founded_makeStore w data
    have hdeclared := makeStore_spec w data
    rw [makeStore_concat, ← ih]
    exact cell_declare _ hfounded.size_le
      (fun k c hk => ⟨hfounded.fresh k c hk, (hdeclared.unheard k c hk).1⟩) key value hcell

/-! ## Components -/

theorem size_components_watch (w : World κ σ) (id : ComponentId) (key : String) :
    (w.watch id key).components.size = w.components.size := by
  unfold watch
  cases (w.component id).store.cell? key with
  | none => rfl
  | some cell => exact Array.size_modify

namespace Orderly

variable {note : σ → Prop} {pending : SubscriberId → Nat} {unwatched : List (ComponentId × String)}
  {id : ComponentId} {key : String}

/-- **A component with cells of its own** whose keys nobody watches yet. -/
theorem pushComponent (h : w.Orderly note pending []) {c : Component κ}
    (hdocument : c.document < w.documents.size) (htemplate : c.template = none)
    (hwatchers : c.watchers = []) (hseparate : c.store.Separate)
    (hcells : ∀ key cell, c.store.cell? key = some cell → cell < w.cells.size ∧
      ∀ id key', (w.component id).store.cell? key' ≠ some cell) :
    ({ w with components := w.components.push c } : World κ σ).Orderly note pending
      (c.store.keys.map fun key => (w.components.size, key)) := by
  have hnew : ({ w with components := w.components.push c } : World κ σ).component
      w.components.size = c := (component_push c _).trans (if_pos rfl)
  have hunpatched : ∀ s key, w.reaction? s ≠ some (.patch w.components.size key) :=
    fun s key hs => Nat.lt_irrefl _ (h.patched_lt s _ key hs)
  have hc : w.Fitting pending (c.store.keys.map fun key => (w.components.size, key))
      w.components.size c := by
    refine ⟨hdocument, fun key cell hkey => (hcells key cell hkey).1, hseparate, ?_,
      fun _ s _ key hs => absurd hs (hunpatched s key), fun _ key cell hkey hwatched => ?_,
      fun key _ s => hunpatched s key, fun _ s key hs => absurd hs (hunpatched s key), ?_, ?_, ?_⟩
    · exact fun key cell hkey other _ => (hcells key cell hkey).2 other
    · have hmem := Store.mem_keys_iff.mpr (hkey ▸ Option.some_ne_none cell)
      exact absurd (List.mem_map.mpr ⟨key, hmem, rfl⟩) hwatched
    · exact fun s hs => absurd (hwatchers ▸ hs) List.not_mem_nil
    · exact fun t ht => absurd (htemplate.symm.trans ht) (Option.some_ne_none t).symm
    · exact fun _ t _ _ ht => absurd (htemplate.symm.trans ht) (Option.some_ne_none t).symm
  refine h.withComponents ?_ (fun other hother hne => ?_)
    (fun other hne => (component_push c other).trans (if_neg hne)) (fun other hne key => ?_)
    (hnew.symm ▸ hc)
  · rw [Array.size_push]
    exact Nat.le_succ _
  · rw [Array.size_push] at hother
    exact Nat.lt_of_le_of_ne (Nat.le_of_lt_succ hother) hne
  · refine iff_of_false (fun hmem => ?_) List.not_mem_nil
    obtain ⟨_, _, he⟩ := List.mem_map.mp hmem
    exact hne (Prod.mk.inj he).1.symm

/-- **Watching one more key.** -/
theorem watch (h : w.Orderly note pending ((id, key) :: unwatched)) (hkey : (id, key) ∉ unwatched)
    (hid : id < w.components.size) : (w.watch id key).Orderly note pending unwatched := by
  unfold World.watch
  cases hcell : (w.component id).store.cell? key with
  | none =>
    refine { h with watched := ?_, unheard := ?_ }
    · intro other key' cell halive hcell' hwatched
      refine h.watched other key' cell halive hcell' fun hmem => ?_
      rcases List.mem_cons.mp hmem with he | hmem
      · obtain ⟨rfl, rfl⟩ := Prod.mk.inj he
        rw [hcell] at hcell'
        cases hcell'
      · exact hwatched hmem
    · exact fun other key' hmem => h.unheard other key' (List.mem_cons_of_mem _ hmem)
  | some cell =>
    have hsubscribe : (w.subscribe cell (.patch id key)).Orderly note pending unwatched := by
      refine h.subscribe (h.cell_lt id key cell hcell) ?_ ?_
      · rintro _ _ ⟨⟩
        exact ⟨hid, hcell, List.mem_cons_self, hkey⟩
      · intro other key' hne
        rw [List.mem_cons]
        refine or_iff_right fun he => ?_
        obtain ⟨rfl, rfl⟩ := Prod.mk.inj he
        exact hne rfl
    refine hsubscribe.modifyComponent rfl rfl (fun hpos => hpos) (fun s hs => ?_)
      (hsubscribe.housed id) (hsubscribe.apart id)
    rcases List.mem_append.mp hs with hs | hs
    · exact hsubscribe.watchers id s hs
    · refine ⟨key, ?_⟩
      rw [List.mem_singleton.mp hs, reaction?_subscribe, if_pos rfl]

/-- **Watching all keys of a component.** -/
theorem watchAll {keys : List String} (h : w.Orderly note pending (keys.map fun key => (id, key)))
    (hkeys : keys.Nodup) (hid : id < w.components.size) :
    (keys.foldl (fun w key => w.watch id key) w).Orderly note pending [] := by
  induction keys generalizing w with
  | nil => exact h
  | cons key keys ih =>
    obtain ⟨hkey, hkeys⟩ := List.nodup_cons.mp hkeys
    refine ih (watch h (fun hmem => ?_) hid) hkeys ?_
    · obtain ⟨_, hmem, he⟩ := List.mem_map.mp hmem
      exact hkey ((Prod.mk.inj he).2 ▸ hmem)
    · exact Nat.lt_of_lt_of_eq hid (size_components_watch w id key).symm

/-- **Adding a component** keeps the world orderly. -/
theorem addComponent (h : w.Orderly note pending []) {document : DocumentId}
    (hdocument : document < w.documents.size) (root : Dom.NodeId) (config : Config κ) :
    (w.addComponent document root config).Orderly note pending [] := by
  have hdeclared := makeStore_spec w config.data
  have hfounded := founded_makeStore w config.data
  have hmade := hfounded.orderly note pending [] h
  have hadded : (w.withAdded document root config).Orderly note pending
      ((w.makeStore config.data).1.keys.map fun key => (w.components.size, key)) := by
    have hdocument' : document < (w.makeStore config.data).2.documents.size :=
      hdeclared.documents.symm ▸ hdocument
    rw [← hdeclared.components]
    refine pushComponent (c := w.added document root config) hmade hdocument' rfl rfl
      hdeclared.separate fun key cell hcell => ⟨(hdeclared.unheard key cell hcell).1, ?_⟩
    · intro id key' hcell'
      rw [show (w.makeStore config.data).2.component id = w.component id by
        unfold component; rw [hdeclared.components]] at hcell'
      exact absurd (h.cell_lt id key' cell hcell') (Nat.not_lt_of_le (hfounded.fresh key cell hcell))
  have hid : w.components.size < (w.withAdded document root config).components.size := by
    rw [size_components_withAdded]
    exact Nat.lt_succ_self _
  exact watchAll hadded hfounded.nodup hid

end Orderly

end World

end BoundView
