import BoundView.World.Store

/-!
# The tables of a world

What each edit of a world does to the tables, entry by entry. An edit of one table leaves the others
alone by definition; only the table that it edits needs a lemma.

Main statements: `component_modifyComponent`, `subscriberHolders_holdSubscriber`,
`subscriberHolders_releaseSubscriber`, `Tuned.subscribe`, `value?_storeValue`.
-/

namespace BoundView

open BoundView.Dom (Document)

namespace World

variable {κ σ : Type} {w : World κ σ}

/-- What a subscriber does; nothing if it is not there. -/
def reaction? (w : World κ σ) (s : SubscriberId) : Option (Reaction κ) :=
  (w.subscribers[s]?).map Subscriber.reaction

/-- Nothing changes where there is no entry. -/
theorem modify_of_size_le {α : Type} {table : Array α} {i : Nat} (h : table.size ≤ i) (f : α → α) :
    table.modify i f = table := by
  refine Array.ext_getElem? fun j => ?_
  rw [Array.getElem?_modify]
  split
  · rename_i hj
    rw [← hj, Array.getElem?_eq_none h]
    rfl
  · rfl

/-- What is read of a table with one entry changed. -/
theorem getD_modify {α : Type} {table : Array α} {i : Nat} (h : i < table.size) (f : α → α)
    (j : Nat) (a : α) :
    (table.modify i f).getD j a = if j = i then f (table.getD i a) else table.getD j a := by
  rw [Array.getD_eq_getD_getElem?, Array.getElem?_modify, Array.getD_eq_getD_getElem?,
    Array.getD_eq_getD_getElem?]
  by_cases hj : j = i
  · rw [if_pos hj, if_pos hj.symm, hj, Array.getElem?_eq_getElem h]
    rfl
  · rw [if_neg hj, if_neg fun he => hj he.symm]

/-! ## Documents -/

theorem document_setDocument {id : DocumentId} (h : id < w.documents.size)
    (d : Document (Action κ)) : (w.setDocument id d).document id = d := by
  unfold setDocument document
  dsimp only
  rw [Array.getD_eq_getD_getElem?, Array.getElem?_setIfInBounds_self_of_lt h]
  rfl

theorem document_setDocument_of_ne {id other : DocumentId} (h : other ≠ id)
    (d : Document (Action κ)) : (w.setDocument id d).document other = w.document other := by
  unfold setDocument document
  dsimp only
  rw [Array.getD_eq_getD_getElem?, Array.getElem?_setIfInBounds_ne (Ne.symm h),
    Array.getD_eq_getD_getElem?]

/-! ## Events -/

theorem event_of_getElem? {id : EventId} {e : Event} (h : w.events[id]? = some e) :
    w.event id = e := by
  unfold event
  rw [Array.getD_eq_getD_getElem?, h]
  rfl

/-- What is read of the events after one of them was changed. -/
theorem getElem?_events_modifyEvent (w : World κ σ) (id other : EventId) (f : Event → Event) :
    (w.modifyEvent id f).events[other]? =
      if id = other then (w.events[other]?).map f else w.events[other]? :=
  Array.getElem?_modify

/-! ## Components -/

theorem component_of_getElem? {id : ComponentId} {c : Component κ}
    (h : w.components[id]? = some c) : w.component id = c := by
  unfold component
  rw [Array.getD_eq_getD_getElem?, h]
  rfl

theorem component_of_size_le {id : ComponentId} (h : w.components.size ≤ id) :
    w.component id = default := by
  unfold component
  rw [Array.getD_eq_getD_getElem?, Array.getElem?_eq_none h]
  rfl

theorem lt_of_template {id : ComponentId} {t : Template} (h : (w.component id).template = some t) :
    id < w.components.size := by
  refine Nat.lt_of_not_le fun hge => ?_
  rw [component_of_size_le hge] at h
  cases h

theorem lt_of_isAlive {id : ComponentId} (h : w.isAlive id = true) : id < w.components.size := by
  refine Nat.lt_of_not_le fun hge => ?_
  unfold isAlive at h
  rw [component_of_size_le hge] at h
  cases h

theorem modifyComponent_of_size_le {id : ComponentId} (h : w.components.size ≤ id)
    (f : Component κ → Component κ) : w.modifyComponent id f = w := by
  unfold modifyComponent
  rw [modify_of_size_le h]

/-- A component that is added last. -/
theorem component_push (c : Component κ) (id : ComponentId) :
    ({ w with components := w.components.push c } : World κ σ).component id =
      if id = w.components.size then c else w.component id := by
  unfold component
  dsimp only
  rw [Array.getD_eq_getD_getElem?, Array.getElem?_push, Array.getD_eq_getD_getElem?]
  split
  · rfl
  · rfl

theorem component_modifyComponent {id : ComponentId} (h : id < w.components.size)
    (f : Component κ → Component κ) (other : ComponentId) :
    (w.modifyComponent id f).component other =
      if other = id then f (w.component id) else w.component other :=
  getD_modify h f other default

theorem component_modifyComponent_self {id : ComponentId} (h : id < w.components.size)
    (f : Component κ → Component κ) : (w.modifyComponent id f).component id = f (w.component id) := by
  rw [component_modifyComponent h, if_pos rfl]

theorem component_modifyComponent_of_ne {id other : ComponentId} (h : id < w.components.size)
    (hother : other ≠ id) (f : Component κ → Component κ) :
    (w.modifyComponent id f).component other = w.component other := by
  rw [component_modifyComponent h, if_neg hother]

/-! ## Subscribers -/

theorem getElem?_modifyHolders (w : World κ σ) (id s : SubscriberId) (f : Nat → Nat) :
    (w.modifyHolders id f).subscribers[s]? =
      if id = s then (w.subscribers[s]?).map fun s => { s with holders := f s.holders }
      else w.subscribers[s]? := by
  unfold modifyHolders
  exact Array.getElem?_modify

/-- Holding and letting go change no reaction. -/
@[simp] theorem reaction?_modifyHolders (w : World κ σ) (id s : SubscriberId) (f : Nat → Nat) :
    (w.modifyHolders id f).reaction? s = w.reaction? s := by
  unfold reaction?
  rw [getElem?_modifyHolders]
  split
  · cases w.subscribers[s]? <;> rfl
  · rfl

@[simp] theorem reaction?_releaseSubscriber (w : World κ σ) (id s : SubscriberId) :
    (w.releaseSubscriber id).reaction? s = w.reaction? s := reaction?_modifyHolders w id s _

@[simp] theorem reaction?_foldl_holdSubscriber (ss : List SubscriberId) (w : World κ σ)
    (s : SubscriberId) : (ss.foldl holdSubscriber w).reaction? s = w.reaction? s := by
  induction ss generalizing w with
  | nil => rfl
  | cons t ss ih => exact (ih _).trans (reaction?_modifyHolders w t s _)

theorem subscriberHolders_holdSubscriber {s : SubscriberId} (h : (w.reaction? s).isSome)
    (id : SubscriberId) :
    (w.holdSubscriber id).subscriberHolders s =
      w.subscriberHolders s + if id = s then 1 else 0 := by
  unfold holdSubscriber subscriberHolders
  rw [getElem?_modifyHolders]
  unfold reaction? at h
  cases hs : w.subscribers[s]? with
  | none =>
    rw [hs] at h
    cases h
  | some subscriber =>
    split
    · rfl
    · rfl

/-- Holding subscribers changes nothing but how many hold them. -/
theorem exists_foldl_holdSubscriber (ss : List SubscriberId) (w : World κ σ) :
    ∃ subscribers, ss.foldl holdSubscriber w = { w with subscribers } ∧
      subscribers.size = w.subscribers.size := by
  induction ss generalizing w with
  | nil => exact ⟨w.subscribers, rfl, rfl⟩
  | cons s ss ih =>
    obtain ⟨subscribers, hfold, hsize⟩ := ih (w.holdSubscriber s)
    exact ⟨subscribers, hfold, hsize.trans Array.size_modify⟩

/-- Subscribers that are there are held once more for each time that they are listed. -/
theorem subscriberHolders_foldl_holdSubscriber {ss : List SubscriberId}
    (hss : ∀ s ∈ ss, (w.reaction? s).isSome) (s : SubscriberId) :
    (ss.foldl holdSubscriber w).subscriberHolders s = w.subscriberHolders s + ss.count s := by
  induction ss generalizing w with
  | nil => rfl
  | cons t ss ih =>
    have hlater : ∀ s ∈ ss, ((w.holdSubscriber t).reaction? s).isSome := by
      intro s hs
      rw [show (w.holdSubscriber t).reaction? s = w.reaction? s from reaction?_modifyHolders ..]
      exact hss s (List.mem_cons_of_mem _ hs)
    have hhold : (w.holdSubscriber t).subscriberHolders s =
        w.subscriberHolders s + if t = s then 1 else 0 := by
      by_cases hts : t = s
      · exact subscriberHolders_holdSubscriber (hts ▸ hss t List.mem_cons_self) t
      · rw [if_neg hts]
        unfold subscriberHolders holdSubscriber
        rw [getElem?_modifyHolders, if_neg hts]
        rfl
    rw [List.foldl_cons, ih hlater, hhold, List.count_cons, Nat.add_assoc]
    congr 1
    rw [Nat.add_comm]
    congr 1
    by_cases hts : t = s
    · rw [if_pos hts, if_pos (beq_iff_eq.mpr hts)]
    · rw [if_neg hts, if_neg fun he => hts (beq_iff_eq.mp he)]

theorem subscriberHolders_releaseSubscriber (w : World κ σ) (id s : SubscriberId) :
    (w.releaseSubscriber id).subscriberHolders s =
      w.subscriberHolders s - if id = s then 1 else 0 := by
  unfold releaseSubscriber subscriberHolders
  rw [getElem?_modifyHolders]
  cases w.subscribers[s]? with
  | none =>
    rw [Option.map_none, ite_self]
    exact (Nat.zero_sub _).symm
  | some subscriber =>
    split
    · rfl
    · rfl

/-- Letting go of subscribers changes nothing but how many hold them. -/
theorem exists_foldl_releaseSubscriber (ss : List SubscriberId) (w : World κ σ) :
    ∃ subscribers, ss.foldl releaseSubscriber w = { w with subscribers } := by
  induction ss generalizing w with
  | nil => exact ⟨w.subscribers, rfl⟩
  | cons s ss ih => exact ih (w.releaseSubscriber s)

@[simp] theorem host_foldl_releaseSubscriber (ss : List SubscriberId) (w : World κ σ) :
    (ss.foldl releaseSubscriber w).host = w.host := by
  obtain ⟨_, hfold⟩ := exists_foldl_releaseSubscriber ss w
  rw [hfold]

/-- Letting go of a component changes nothing but components and subscribers. -/
theorem exists_releaseComponent (w : World κ σ) (id : ComponentId) :
    ∃ subscribers components, w.releaseComponent id = { w with subscribers, components } := by
  unfold releaseComponent
  dsimp only
  split
  · obtain ⟨subscribers, hfold⟩ := exists_foldl_releaseSubscriber (w.component id).watchers
      (w.modifyComponent id fun c => { c with holders := c.holders - 1 })
    exact ⟨subscribers, _, hfold⟩
  · exact ⟨_, _, rfl⟩

@[simp] theorem host_releaseComponent (w : World κ σ) (id : ComponentId) :
    (w.releaseComponent id).host = w.host := by
  obtain ⟨_, _, hrelease⟩ := exists_releaseComponent w id
  rw [hrelease]

theorem getElem?_subscribe (w : World κ σ) (id : CellId) (reaction : Reaction κ) (s : SubscriberId) :
    (w.subscribe id reaction).subscribers[s]? =
      if s = w.subscribers.size then some ⟨reaction, 1⟩ else w.subscribers[s]? := by
  unfold subscribe modifyCell
  exact Array.getElem?_push

/-- **A new subscriber** comes last and changes no other one. -/
theorem reaction?_subscribe (w : World κ σ) (id : CellId) (reaction : Reaction κ)
    (s : SubscriberId) :
    (w.subscribe id reaction).reaction? s =
      if s = w.subscribers.size then some reaction else w.reaction? s := by
  unfold reaction?
  rw [getElem?_subscribe]
  split
  · rfl
  · rfl

theorem subscriberHolders_subscribe (w : World κ σ) (id : CellId) (reaction : Reaction κ)
    (s : SubscriberId) :
    (w.subscribe id reaction).subscriberHolders s =
      if s = w.subscribers.size then 1 else w.subscriberHolders s := by
  unfold subscriberHolders
  rw [getElem?_subscribe]
  split
  · rfl
  · rfl

theorem reaction?_of_size_le {s : SubscriberId} (h : w.subscribers.size ≤ s) :
    w.reaction? s = none := by
  unfold reaction?
  rw [Array.getElem?_eq_none h]
  rfl

theorem lt_of_reaction? {s : SubscriberId} {reaction : Reaction κ}
    (h : w.reaction? s = some reaction) : s < w.subscribers.size := by
  obtain ⟨_, hs, _⟩ := Option.map_eq_some_iff.mp h
  exact (Array.getElem?_eq_some_iff.mp hs).1

theorem reaction?_subscribe_of_eq_some {s : SubscriberId} {reaction : Reaction κ}
    (h : w.reaction? s = some reaction) (id : CellId) (new : Reaction κ) :
    (w.subscribe id new).reaction? s = some reaction := by
  rw [reaction?_subscribe, if_neg (Nat.ne_of_lt (lt_of_reaction? h)), h]

/-- Whoever is there is the new subscriber, or was there and reacts as before. -/
theorem reaction?_subscribe_cases {id : CellId} {new reaction : Reaction κ} {s : SubscriberId}
    (h : (w.subscribe id new).reaction? s = some reaction) :
    s = w.subscribers.size ∧ new = reaction ∨ w.reaction? s = some reaction := by
  rw [reaction?_subscribe] at h
  split at h
  · exact .inl ⟨‹_›, Option.some.inj h⟩
  · exact .inr h

theorem isSome_reaction?_subscribe {s : SubscriberId} (h : (w.reaction? s).isSome = true)
    (id : CellId) (new : Reaction κ) : ((w.subscribe id new).reaction? s).isSome = true := by
  obtain ⟨reaction, hreaction⟩ := Option.isSome_iff_exists.mp h
  rw [reaction?_subscribe_of_eq_some hreaction]
  rfl

/-! ## Cells -/

theorem cell_of_size_le {id : CellId} (h : w.cells.size ≤ id) : w.cell id = default := by
  unfold cell
  rw [Array.getD_eq_getD_getElem?, Array.getElem?_eq_none h]
  rfl

theorem cell_modifyCell {id : CellId} (h : id < w.cells.size) (f : Cell → Cell) (other : CellId) :
    (w.modifyCell id f).cell other = if other = id then f (w.cell id) else w.cell other :=
  getD_modify h f other default

theorem size_cells_modifyCell (w : World κ σ) (id : CellId) (f : Cell → Cell) :
    (w.modifyCell id f).cells.size = w.cells.size := Array.size_modify

theorem size_cells_storeValue (w : World κ σ) (id : CellId) (value : Value) :
    (w.storeValue id value).cells.size = w.cells.size := size_cells_modifyCell _ _ _

theorem cell_addCell (w : World κ σ) (value : Value) (other : CellId) :
    (w.addCell value).cell other =
      if other = w.cells.size then ⟨value, 0, []⟩ else w.cell other := by
  unfold addCell cell
  dsimp only
  rw [Array.getD_eq_getD_getElem?, Array.getElem?_push, Array.getD_eq_getD_getElem?]
  split
  · rfl
  · rfl

theorem cell_subscribe {id : CellId} (h : id < w.cells.size) (reaction : Reaction κ)
    (other : CellId) :
    (w.subscribe id reaction).cell other =
      if other = id then
        { w.cell id with subscribers := (w.cell id).subscribers ++ [w.subscribers.size] }
      else w.cell other :=
  cell_modifyCell (w := { w with subscribers := w.subscribers.push ⟨reaction, 1⟩ }) h _ other

/-- A new subscriber hears its cell and no other. -/
theorem mem_subscribers_subscribe {id : CellId} (h : id < w.cells.size) {reaction : Reaction κ}
    {other : CellId} {s : SubscriberId} :
    s ∈ ((w.subscribe id reaction).cell other).subscribers ↔
      s ∈ (w.cell other).subscribers ∨ s = w.subscribers.size ∧ other = id := by
  rw [cell_subscribe h]
  by_cases he : other = id
  · rw [if_pos he, he, List.mem_append, List.mem_singleton]
    simp
  · rw [if_neg he]
    simp [he]

/-- **The first subscriber of a cell stays first.** -/
theorem subscribers_subscribe {id : CellId} (h : id < w.cells.size) (reaction : Reaction κ)
    {other : CellId} {s : SubscriberId} {rest : List SubscriberId}
    (hs : (w.cell other).subscribers = s :: rest) :
    ∃ rest', ((w.subscribe id reaction).cell other).subscribers = s :: rest' := by
  rw [cell_subscribe h]
  by_cases he : other = id
  · rw [if_pos he]
    dsimp only
    rw [← he, hs]
    exact ⟨_, rfl⟩
  · rw [if_neg he]
    exact ⟨rest, hs⟩

theorem storeValue_of_size_le {id : CellId} (h : w.cells.size ≤ id) (value : Value) :
    w.storeValue id value = w := by
  unfold storeValue modifyCell
  rw [modify_of_size_le h]

theorem cell_storeValue {id : CellId} (h : id < w.cells.size) (value : Value) (other : CellId) :
    (w.storeValue id value).cell other =
      if other = id then
        ⟨value, (w.cell id).version + 1, (w.cell id).subscribers.filter w.isLive⟩
      else w.cell other := by
  unfold storeValue
  rw [cell_modifyCell h]

end World

/-! ## Stores -/

/-- **No two keys share a cell.** -/
def Store.Separate (store : Store) : Prop :=
  ∀ ⦃key key' cell⦄, store.cell? key = some cell → store.cell? key' = some cell → key' = key

/-- A reaction that, if it patches, patches for this key. -/
def Reaction.Suits {κ : Type} (reaction : Reaction κ) (key : String) : Prop :=
  ∀ id k, reaction = .patch id k → k = key

/-- The values of keys after one more write; a key that is not declared stays so. -/
def overwritten (values : String → Option Value) (key : String) (value : Value) :
    String → Option Value :=
  fun k => if k = key then (values k).map fun _ => value else values k

theorem overwritten_of_ne {values : String → Option Value} {key k : String} (h : k ≠ key)
    (value : Value) : overwritten values key value k = values k := if_neg h

theorem overwritten_of_some {values : String → Option Value} {key : String} {old : Value}
    (h : values key = some old) (value : Value) : overwritten values key value key = some value := by
  unfold overwritten
  rw [if_pos rfl, h]
  rfl

theorem overwritten_of_none {values : String → Option Value} {key : String}
    (h : values key = none) (value : Value) : overwritten values key value = values := by
  funext k
  unfold overwritten
  split
  · rename_i hk
    rw [hk, h]
    rfl
  · rfl

namespace World

variable {κ σ : Type} {w : World κ σ}

/-- **A tuned store**: whoever hears a key and patches, patches for this key. -/
def Tuned (w : World κ σ) (store : Store) : Prop :=
  ∀ key cell, store.cell? key = some cell → ∀ s ∈ (w.cell cell).subscribers,
    ∃ reaction, w.reaction? s = some reaction ∧ reaction.Suits key

/-- A new subscriber that suits the keys of its cell keeps a store tuned. -/
theorem Tuned.subscribe {store : Store} (h : w.Tuned store) {cell : CellId}
    (hcell : cell < w.cells.size) {reaction : Reaction κ}
    (hreaction : ∀ key, store.cell? key = some cell → reaction.Suits key) :
    (w.subscribe cell reaction).Tuned store := by
  intro key other hother s hs
  rcases (mem_subscribers_subscribe hcell).mp hs with hold | ⟨rfl, rfl⟩
  · obtain ⟨old, hreaction?, hsuits⟩ := h key other hother s hold
    exact ⟨old, reaction?_subscribe_of_eq_some hreaction? cell reaction, hsuits⟩
  · refine ⟨reaction, ?_, hreaction key hother⟩
    rw [reaction?_subscribe, if_pos rfl]

/-- A key has a value just where it is declared. -/
theorem value?_eq_none_iff {store : Store} {key : String} :
    w.value? store key = none ↔ store.cell? key = none := Option.map_eq_none_iff

/-- **Storing a value** in a key's cell overwrites this key. -/
theorem value?_storeValue {store : Store} (hstore : store.Separate) {key : String} {id : CellId}
    (hkey : store.cell? key = some id) (h : id < w.cells.size) (value : Value) :
    (w.storeValue id value).value? store = overwritten (w.value? store) key value := by
  funext k
  unfold overwritten value?
  by_cases hk : k = key
  · rw [if_pos hk, hk, hkey]
    show some ((w.storeValue id value).cell id).value = some value
    rw [cell_storeValue h, if_pos rfl]
  · rw [if_neg hk]
    cases hcell : store.cell? k with
    | none => rfl
    | some other =>
      have hother : other ≠ id := by
        intro he
        exact hk (hstore hkey (he ▸ hcell))
      show some ((w.storeValue id value).cell other).value = some (w.cell other).value
      rw [cell_storeValue h, if_neg hother]

/-- A change of cells that keeps their values. -/
theorem value?_modifyCell (w : World κ σ) (store : Store) (id : CellId) {f : Cell → Cell}
    (hf : ∀ c, (f c).value = c.value) : (w.modifyCell id f).value? store = w.value? store := by
  have hcell : ∀ other, ((w.modifyCell id f).cell other).value = (w.cell other).value := by
    intro other
    unfold modifyCell cell
    dsimp only
    rw [Array.getD_eq_getD_getElem?, Array.getElem?_modify, Array.getD_eq_getD_getElem?]
    split
    · cases w.cells[other]? with
      | none => rfl
      | some c => exact hf c
    · rfl
  funext key
  unfold value?
  congr 1
  funext other
  exact hcell other

theorem value?_foldl_holdSubscriber (ss : List SubscriberId) (w : World κ σ) (store : Store) :
    (ss.foldl holdSubscriber w).value? store = w.value? store := by
  induction ss generalizing w with
  | nil => rfl
  | cons s ss ih => exact ih _

/-- A new subscriber changes no value. -/
theorem value?_subscribe (w : World κ σ) (store : Store) (id : CellId) (reaction : Reaction κ) :
    (w.subscribe id reaction).value? store = w.value? store :=
  value?_modifyCell { w with subscribers := w.subscribers.push ⟨reaction, 1⟩ } store id fun _ => rfl

/-- A lookup answers with the texts of the values. -/
theorem lookup_congr {w' : World κ σ} {store : Store} {key : String}
    (h : w'.value? store key = w.value? store key) : w'.lookup store key = w.lookup store key := by
  unfold lookup
  rw [h]

end World

end BoundView
