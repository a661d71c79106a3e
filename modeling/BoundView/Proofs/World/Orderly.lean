import BoundView.Component.Dispatch
import BoundView.Proofs.Rendering.Housing
import BoundView.Proofs.World.Tables

/-!
# Orderly worlds

A world is **orderly** when its tables fit together: every key has a cell that no other key of any
component has, the keys of every living component are watched, each by one subscriber, at the cell of
the key, and the rendered nodes of every component are nodes of its document that no other component
has rendered. Many documents and components may be there at once, and user code may have done to them
whatever it can.

Two things may be under way. A subscriber may be waiting for its turn in a round, and is held for it;
and some keys of a new component may not be watched yet.

Each edit of a world that a computation makes keeps the world orderly. The laws are grouped by the
table that is edited: documents, cells, subscribers, components.

Main statements: the laws of `World.Orderly`.
-/

namespace BoundView

open BoundView.Dom (Document NodeId)
open BoundView.Dom.Document (Grows)

variable {κ σ : Type}

namespace World

/-- The turns to come when a round begins. -/
def awaiting (pending : SubscriberId → Nat) (round : List SubscriberId) : SubscriberId → Nat :=
  fun s => pending s + round.count s

/-- **An orderly world**, in which each subscriber waits for so many turns, and these keys are not
watched yet. -/
structure Orderly (note : σ → Prop) (pending : SubscriberId → Nat)
    (unwatched : List (ComponentId × String)) (w : World κ σ) : Prop where
  noted : note w.host
  document_lt : ∀ id, id < w.components.size → (w.component id).document < w.documents.size
  cell_lt : ∀ id key cell, (w.component id).store.cell? key = some cell → cell < w.cells.size
  /-- No two keys share a cell, be they of one component or of two. -/
  separate : ∀ id key other key' cell, (w.component id).store.cell? key = some cell →
    (w.component other).store.cell? key' = some cell → other = id ∧ key' = key
  nodup : ∀ cell, (w.cell cell).subscribers.Nodup
  there : ∀ cell, ∀ s ∈ (w.cell cell).subscribers, (w.reaction? s).isSome = true
  /-- Whoever patches for a key hears the cell of the key. -/
  tuned : ∀ cell, ∀ s ∈ (w.cell cell).subscribers, ∀ id key,
    w.reaction? s = some (.patch id key) → (w.component id).store.cell? key = some cell
  single : ∀ s t id key, w.reaction? s = some (.patch id key) →
    w.reaction? t = some (.patch id key) → t = s
  patched_lt : ∀ s id key, w.reaction? s = some (.patch id key) → id < w.components.size
  watched : ∀ id key cell, w.isAlive id = true → (w.component id).store.cell? key = some cell →
    (id, key) ∉ unwatched → ∃ s ∈ (w.cell cell).subscribers, w.reaction? s = some (.patch id key)
  unheard : ∀ id key, (id, key) ∈ unwatched → ∀ s, w.reaction? s ≠ some (.patch id key)
  waiting : ∀ s, 0 < pending s → (w.reaction? s).isSome = true
  /-- The watchers of a living component are held, besides for the turns that they wait for. -/
  held : ∀ s id key, w.isAlive id = true → w.reaction? s = some (.patch id key) →
    pending s < w.subscriberHolders s
  watchers : ∀ id, ∀ s ∈ (w.component id).watchers, ∃ key, w.reaction? s = some (.patch id key)
  housed : ∀ id t, (w.component id).template = some t →
    t.Housed (w.document (w.component id).document)
  /-- No two components of one document have rendered the same node. -/
  apart : ∀ id other t t', other ≠ id → (w.component id).template = some t →
    (w.component other).template = some t' →
      (w.component other).document = (w.component id).document → t.handles.Disjoint t'.handles

/-- **What a component needs** to have its place in an orderly world beside the others. -/
structure Fitting (w : World κ σ) (pending : SubscriberId → Nat)
    (unwatched : List (ComponentId × String)) (id : ComponentId) (c : Component κ) : Prop where
  document_lt : c.document < w.documents.size
  cell_lt : ∀ key cell, c.store.cell? key = some cell → cell < w.cells.size
  separate : c.store.Separate
  foreign : ∀ key cell, c.store.cell? key = some cell → ∀ other, other ≠ id → ∀ key',
    (w.component other).store.cell? key' ≠ some cell
  tuned : ∀ cell, ∀ s ∈ (w.cell cell).subscribers, ∀ key,
    w.reaction? s = some (.patch id key) → c.store.cell? key = some cell
  watched : 0 < c.holders → ∀ key cell, c.store.cell? key = some cell → (id, key) ∉ unwatched →
    ∃ s ∈ (w.cell cell).subscribers, w.reaction? s = some (.patch id key)
  unheard : ∀ key, (id, key) ∈ unwatched → ∀ s, w.reaction? s ≠ some (.patch id key)
  held : 0 < c.holders → ∀ s key, w.reaction? s = some (.patch id key) →
    pending s < w.subscriberHolders s
  watchers : ∀ s ∈ c.watchers, ∃ key, w.reaction? s = some (.patch id key)
  housed : ∀ t, c.template = some t → t.Housed (w.document c.document)
  apart : ∀ other t t', other ≠ id → c.template = some t → (w.component other).template = some t' →
    (w.component other).document = c.document → t.handles.Disjoint t'.handles

variable {w : World κ σ}

namespace Orderly

variable {note : σ → Prop} {pending : SubscriberId → Nat} {unwatched : List (ComponentId × String)}

/-! ## Edits that the order does not read -/

theorem tell (h : w.Orderly note pending unwatched) (traces : List Trace) :
    (w.tell traces).Orderly note pending unwatched := { h with }

theorem addEvent (h : w.Orderly note pending unwatched) (e : Event) :
    (w.addEvent e).Orderly note pending unwatched := { h with }

theorem modifyEvent (h : w.Orderly note pending unwatched) (id : EventId) (f : Event → Event) :
    (w.modifyEvent id f).Orderly note pending unwatched := { h with }

theorem modifyHost {note' : σ → Prop} (h : w.Orderly note pending unwatched) (f : σ → σ)
    (hf : note w.host → note' (f w.host)) : (w.modifyHost f).Orderly note' pending unwatched :=
  { h with noted := hf h.noted }

/-! ## Documents -/

/-- The documents may grow, and there may be more of them. -/
theorem withDocuments (h : w.Orderly note pending unwatched)
    {documents : Array (Document (Action κ))} (hsize : w.documents.size ≤ documents.size)
    (hgrows : ∀ id, id < w.documents.size →
      Grows (w.document id) (({ w with documents } : World κ σ).document id)) :
    ({ w with documents } : World κ σ).Orderly note pending unwatched := by
  refine { h with document_lt := ?_, housed := ?_ }
  · exact fun id hid => Nat.lt_of_lt_of_le (h.document_lt id hid) hsize
  · intro id t ht
    exact (h.housed id t ht).grows (hgrows _ (h.document_lt id (lt_of_template ht)))

theorem pushDocument (h : w.Orderly note pending unwatched) (d : Document (Action κ)) :
    ({ w with documents := w.documents.push d } : World κ σ).Orderly note pending unwatched := by
  refine h.withDocuments ?_ fun id hid => ?_
  · rw [Array.size_push]
    exact Nat.le_succ _
  · have hsame : ({ w with documents := w.documents.push d } : World κ σ).document id =
        w.document id := by
      unfold document
      dsimp only
      rw [Array.getD_eq_getD_getElem?, Array.getElem?_push, if_neg (Nat.ne_of_lt hid),
        Array.getD_eq_getD_getElem?]
    rw [hsame]
    exact .refl _

theorem setDocument (h : w.Orderly note pending unwatched) {id : DocumentId}
    {d : Document (Action κ)} (hgrows : Grows (w.document id) d) :
    (w.setDocument id d).Orderly note pending unwatched := by
  refine h.withDocuments (Nat.le_of_eq Array.size_setIfInBounds.symm) fun other hother => ?_
  by_cases he : other = id
  · subst he
    show Grows _ ((w.setDocument other d).document other)
    rw [document_setDocument hother]
    exact hgrows
  · show Grows _ ((w.setDocument id d).document other)
    rw [document_setDocument_of_ne he]
    exact .refl _

/-! ## Cells -/

/-- Cells may lose subscribers, but not the watchers of living components, and there may be more
cells. -/
theorem withCells (h : w.Orderly note pending unwatched) {cells : Array Cell}
    (hsize : w.cells.size ≤ cells.size)
    (hsublist : ∀ id, (({ w with cells } : World κ σ).cell id).subscribers.Sublist
      (w.cell id).subscribers)
    (hkept : ∀ id, ∀ s ∈ (w.cell id).subscribers, 0 < w.subscriberHolders s →
      s ∈ (({ w with cells } : World κ σ).cell id).subscribers) :
    ({ w with cells } : World κ σ).Orderly note pending unwatched := by
  refine { h with cell_lt := ?_, nodup := ?_, there := ?_, tuned := ?_, watched := ?_ }
  · exact fun id key cell hcell => Nat.lt_of_lt_of_le (h.cell_lt id key cell hcell) hsize
  · exact fun cell => (h.nodup cell).sublist (hsublist cell)
  · exact fun cell s hs => h.there cell s ((hsublist cell).subset hs)
  · exact fun cell s hs => h.tuned cell s ((hsublist cell).subset hs)
  · intro id key cell halive hcell hwatched
    obtain ⟨s, hs, hreaction⟩ := h.watched id key cell halive hcell hwatched
    have hheld := h.held s id key halive hreaction
    exact ⟨s, hkept cell s hs (Nat.lt_of_le_of_lt (Nat.zero_le _) hheld), hreaction⟩

theorem addCell (h : w.Orderly note pending unwatched) (value : Value) :
    (w.addCell value).Orderly note pending unwatched := by
  have hsame : ∀ id, ((w.addCell value).cell id).subscribers = (w.cell id).subscribers := by
    intro id
    rw [cell_addCell]
    split
    · rename_i hid
      rw [cell_of_size_le (Nat.le_of_eq hid.symm)]
      rfl
    · rfl
  refine h.withCells ?_ (fun id => ?_) fun id s hs _ => ?_
  · rw [Array.size_push]
    exact Nat.le_succ _
  · exact (hsame id).symm ▸ .refl _
  · exact (hsame id).symm ▸ hs

/-- **Storing a value** drops only subscribers that nobody holds. -/
theorem storeValue (h : w.Orderly note pending unwatched) (id : CellId) (value : Value) :
    (w.storeValue id value).Orderly note pending unwatched := by
  refine h.withCells (Nat.le_of_eq (size_cells_storeValue w id value).symm) (fun other => ?_)
    fun other s hs hheld => ?_
  · show ((w.storeValue id value).cell other).subscribers.Sublist _
    rcases Nat.lt_or_ge id w.cells.size with hlt | hge
    · rw [cell_storeValue hlt]
      split
      · rename_i he
        rw [he]
        exact List.filter_sublist
      · exact .refl _
    · rw [storeValue_of_size_le hge]
  · show s ∈ ((w.storeValue id value).cell other).subscribers
    rcases Nat.lt_or_ge id w.cells.size with hlt | hge
    · rw [cell_storeValue hlt]
      split
      · rename_i he
        exact List.mem_filter.mpr ⟨he ▸ hs, decide_eq_true hheld⟩
      · exact hs
    · rw [storeValue_of_size_le hge]
      exact hs

/-! ## Subscribers -/

/-- Who holds a subscriber may change, as long as the watchers of living components stay held. -/
theorem withSubscribers {pending' : SubscriberId → Nat} (h : w.Orderly note pending unwatched)
    {subscribers : Array (Subscriber κ)}
    (hreaction : ∀ s, ({ w with subscribers } : World κ σ).reaction? s = w.reaction? s)
    (hwaiting : ∀ s, 0 < pending' s → (w.reaction? s).isSome = true)
    (hheld : ∀ s id key, w.isAlive id = true → w.reaction? s = some (.patch id key) →
      pending' s < ({ w with subscribers } : World κ σ).subscriberHolders s) :
    ({ w with subscribers } : World κ σ).Orderly note pending' unwatched := by
  have hreaction' : ({ w with subscribers } : World κ σ).reaction? = w.reaction? :=
    funext hreaction
  refine { h with
    there := ?there, tuned := ?tuned, single := ?single, patched_lt := ?patched_lt
    watched := ?watched, unheard := ?unheard, waiting := ?waiting, held := ?held
    watchers := ?watchers }
  case there =>
    rw [hreaction']
    exact h.there
  case tuned =>
    rw [hreaction']
    exact h.tuned
  case single =>
    rw [hreaction']
    exact h.single
  case patched_lt =>
    rw [hreaction']
    exact h.patched_lt
  case watched =>
    rw [hreaction']
    exact h.watched
  case unheard =>
    rw [hreaction']
    exact h.unheard
  case waiting =>
    rw [hreaction']
    exact hwaiting
  case held =>
    rw [hreaction']
    exact hheld
  case watchers =>
    rw [hreaction']
    exact h.watchers

/-- **A round begins**: subscribers of a cell are held for their turns. -/
theorem holdRound (h : w.Orderly note pending unwatched) {round : List SubscriberId}
    (hround : ∀ s ∈ round, (w.reaction? s).isSome = true) :
    (round.foldl holdSubscriber w).Orderly note (awaiting pending round) unwatched := by
  have hholders := subscriberHolders_foldl_holdSubscriber hround
  have hreaction := fun s => reaction?_foldl_holdSubscriber round w s
  obtain ⟨subscribers, hfold, _⟩ := exists_foldl_holdSubscriber round w
  rw [hfold] at hholders hreaction ⊢
  refine h.withSubscribers hreaction (fun s hs => ?_) fun s id key halive hs => ?_
  · by_cases hmem : s ∈ round
    · exact hround s hmem
    · unfold awaiting at hs
      rw [List.count_eq_zero_of_not_mem hmem] at hs
      exact h.waiting s hs
  · rw [hholders]
    exact Nat.add_lt_add_right (h.held s id key halive hs) _

/-- **A turn is over**, and the subscriber is let go. -/
theorem releaseTurn {s : SubscriberId} {round : List SubscriberId}
    (h : w.Orderly note (awaiting pending (s :: round)) unwatched) :
    (w.releaseSubscriber s).Orderly note (awaiting pending round) unwatched := by
  have hcount : ∀ t, awaiting pending (s :: round) t =
      awaiting pending round t + if s = t then 1 else 0 := by
    intro t
    unfold awaiting
    rw [List.count_cons, Nat.add_assoc]
    simp only [beq_iff_eq]
  refine h.withSubscribers (w.reaction?_releaseSubscriber s) (fun t ht => ?_)
    fun t id key halive ht => ?_
  · refine h.waiting t ?_
    rw [hcount]
    exact Nat.lt_of_lt_of_le ht (Nat.le_add_right _ _)
  · have hlt := h.held t id key halive ht
    rw [hcount] at hlt
    show _ < (w.releaseSubscriber s).subscriberHolders t
    rw [subscriberHolders_releaseSubscriber]
    exact Nat.lt_sub_of_add_lt hlt

/-- All that are left of a round that fails are let go. -/
theorem releaseRound {round : List SubscriberId}
    (h : w.Orderly note (awaiting pending round) unwatched) :
    (round.foldl releaseSubscriber w).Orderly note pending unwatched := by
  induction round generalizing w with
  | nil => exact h
  | cons s round ih => exact ih h.releaseTurn

/-- A subscriber may be let go that watches no living component. -/
theorem releaseSubscriber (h : w.Orderly note pending unwatched) {s : SubscriberId}
    (hs : ∀ id key, w.reaction? s = some (.patch id key) → w.isAlive id = false) :
    (w.releaseSubscriber s).Orderly note pending unwatched := by
  refine h.withSubscribers (w.reaction?_releaseSubscriber s) h.waiting fun t id key halive ht => ?_
  have hne : s ≠ t := by
    rintro rfl
    rw [hs id key ht] at halive
    cases halive
  show _ < (w.releaseSubscriber s).subscriberHolders t
  rw [subscriberHolders_releaseSubscriber, if_neg hne]
  exact h.held t id key halive ht

/-! ## A new subscriber -/

/-- Whoever hears a cell is there. -/
theorem lt_of_mem_subscribers (h : w.Orderly note pending unwatched) {cell : CellId}
    {s : SubscriberId} (hs : s ∈ (w.cell cell).subscribers) : s < w.subscribers.size := by
  obtain ⟨_, hreaction⟩ := Option.isSome_iff_exists.mp (h.there cell s hs)
  exact lt_of_reaction? hreaction

/-- Nobody has to wait who is not there. -/
theorem pending_size (h : w.Orderly note pending unwatched) : pending w.subscribers.size = 0 := by
  refine Nat.eq_zero_of_not_pos fun hpos => ?_
  obtain ⟨_, hreaction⟩ := Option.isSome_iff_exists.mp (h.waiting _ hpos)
  exact Nat.lt_irrefl _ (lt_of_reaction? hreaction)

section

variable {unwatched' : List (ComponentId × String)} {cell : CellId} {reaction : Reaction κ}

/-- The first watcher of a key is its only one. -/
theorem single_subscribe (h : w.Orderly note pending unwatched)
    (hunheard : ∀ s id key, reaction = .patch id key → w.reaction? s ≠ some (.patch id key))
    {s t : SubscriberId} {id : ComponentId} {key : String}
    (hs : (w.subscribe cell reaction).reaction? s = some (.patch id key))
    (ht : (w.subscribe cell reaction).reaction? t = some (.patch id key)) : t = s := by
  rcases reaction?_subscribe_cases hs with ⟨rfl, he⟩ | hs
  · rcases reaction?_subscribe_cases ht with ⟨rfl, _⟩ | ht
    · rfl
    · exact absurd ht (hunheard t id key he)
  · rcases reaction?_subscribe_cases ht with ⟨rfl, he⟩ | ht
    · exact absurd hs (hunheard s id key he)
    · exact h.single s t id key hs ht

/-- Whoever patches for a key hears its cell, the new subscriber too. -/
theorem tuned_subscribe (h : w.Orderly note pending unwatched) (hcell : cell < w.cells.size)
    {id : ComponentId} {key : String}
    (hnew : reaction = .patch id key → (w.component id).store.cell? key = some cell)
    {other : CellId} {s : SubscriberId} (hs : s ∈ ((w.subscribe cell reaction).cell other).subscribers)
    (hkey : (w.subscribe cell reaction).reaction? s = some (.patch id key)) :
    (w.component id).store.cell? key = some other := by
  rcases (mem_subscribers_subscribe hcell).mp hs with hs | ⟨rfl, rfl⟩
  · rcases reaction?_subscribe_cases hkey with ⟨rfl, _⟩ | hkey
    · exact absurd (h.lt_of_mem_subscribers hs) (Nat.lt_irrefl _)
    · exact h.tuned other s hs id key hkey
  · rcases reaction?_subscribe_cases hkey with ⟨_, he⟩ | hkey
    · exact hnew he
    · exact absurd (lt_of_reaction? hkey) (Nat.lt_irrefl _)

/-- **A new subscriber** of a cell runs a handler, or it watches a key of the cell that nobody watched
before. -/
theorem subscribe (h : w.Orderly note pending unwatched) (hcell : cell < w.cells.size)
    (hnew : ∀ id key, reaction = .patch id key → id < w.components.size ∧
      (w.component id).store.cell? key = some cell ∧ (id, key) ∈ unwatched ∧
        (id, key) ∉ unwatched')
    (hrest : ∀ id key, reaction ≠ .patch id key → ((id, key) ∈ unwatched ↔ (id, key) ∈ unwatched')) :
    (w.subscribe cell reaction).Orderly note pending unwatched' := by
  have hsubscribers : ∀ other s, s ∈ ((w.subscribe cell reaction).cell other).subscribers ↔
      s ∈ (w.cell other).subscribers ∨ s = w.subscribers.size ∧ other = cell :=
    fun other s => mem_subscribers_subscribe hcell
  have hreaction := w.reaction?_subscribe cell reaction
  have hunheard : ∀ s id key, reaction = .patch id key → w.reaction? s ≠ some (.patch id key) :=
    fun s id key he => h.unheard id key (hnew id key he).2.2.1 s
  refine { h with
    cell_lt := ?cell_lt, nodup := ?nodup, there := ?there, tuned := ?tuned, single := ?single
    patched_lt := ?patched_lt, watched := ?watched, unheard := ?unheard, waiting := ?waiting
    held := ?held, watchers := ?watchers }
  case cell_lt =>
    intro id key other hother
    rw [show (w.subscribe cell reaction).cells.size = w.cells.size from size_cells_modifyCell _ _ _]
    exact h.cell_lt id key other hother
  case nodup =>
    intro other
    rw [cell_subscribe hcell]
    split
    · refine List.nodup_append'.mpr ⟨h.nodup cell, List.nodup_singleton _, fun s hs hnew => ?_⟩
      have hlt := h.lt_of_mem_subscribers hs
      rw [List.mem_singleton.mp hnew] at hlt
      exact Nat.lt_irrefl _ hlt
    · exact h.nodup other
  case there =>
    intro other s hs
    rcases (hsubscribers other s).mp hs with hs | ⟨rfl, _⟩
    · exact isSome_reaction?_subscribe (h.there other s hs) cell reaction
    · rw [hreaction, if_pos rfl]
      rfl
  case tuned =>
    exact fun other s hs id key hkey =>
      h.tuned_subscribe hcell (fun he => (hnew id key he).2.1) hs hkey
  case single => exact fun s t id key => h.single_subscribe hunheard
  case patched_lt =>
    intro s id key hs
    rcases reaction?_subscribe_cases hs with ⟨_, he⟩ | hs
    · exact (hnew id key he).1
    · exact h.patched_lt s id key hs
  case watched =>
    intro id key other halive hother hwatched
    by_cases he : reaction = .patch id key
    · obtain rfl := Option.some.inj ((hnew id key he).2.1.symm.trans hother)
      refine ⟨w.subscribers.size, (hsubscribers cell _).mpr (.inr ⟨rfl, rfl⟩), ?_⟩
      rw [hreaction, if_pos rfl, he]
    · obtain ⟨s, hs, hkey⟩ := h.watched id key other halive hother
        fun hmem => hwatched ((hrest id key he).mp hmem)
      exact ⟨s, (hsubscribers other s).mpr (.inl hs), reaction?_subscribe_of_eq_some hkey _ _⟩
  case unheard =>
    intro id key hmem s hs
    rcases reaction?_subscribe_cases hs with ⟨_, he⟩ | hs
    · exact (hnew id key he).2.2.2 hmem
    · by_cases he : reaction = .patch id key
      · exact hunheard s id key he hs
      · exact h.unheard id key ((hrest id key he).mpr hmem) s hs
  case waiting => exact fun s hs => isSome_reaction?_subscribe (h.waiting s hs) cell reaction
  case held =>
    intro s id key halive hs
    rw [subscriberHolders_subscribe]
    split
    · rename_i hlast
      rw [hlast, h.pending_size]
      exact Nat.zero_lt_one
    · rename_i hne
      rcases reaction?_subscribe_cases hs with ⟨hlast, _⟩ | hs
      · exact absurd hlast hne
      · exact h.held s id key halive hs
  case watchers =>
    intro id s hs
    obtain ⟨key, hkey⟩ := h.watchers id s hs
    exact ⟨key, reaction?_subscribe_of_eq_some hkey cell reaction⟩

end

/-! ## Components -/

/-- A component that is there fits. -/
theorem fitting (h : w.Orderly note pending unwatched) {id : ComponentId}
    (hid : id < w.components.size) : w.Fitting pending unwatched id (w.component id) where
  document_lt := h.document_lt id hid
  cell_lt := h.cell_lt id
  separate _ _ cell hkey hkey' := (h.separate id _ id _ cell hkey hkey').2
  foreign key cell hkey other hne key' hkey' := hne (h.separate id key other key' cell hkey hkey').1
  tuned cell s hs := h.tuned cell s hs id
  watched halive key cell := h.watched id key cell (decide_eq_true halive)
  unheard := h.unheard id
  held halive s key := h.held s id key (decide_eq_true halive)
  watchers := h.watchers id
  housed := h.housed id
  apart other := h.apart id other

/-- **A component that fits** may take a place, old or new. -/
theorem withComponents {unwatched' : List (ComponentId × String)}
    (h : w.Orderly note pending unwatched) {components : Array (Component κ)} {id : ComponentId}
    (hle : w.components.size ≤ components.size)
    (hlt : ∀ other, other < components.size → other ≠ id → other < w.components.size)
    (hothers : ∀ other, other ≠ id →
      ({ w with components } : World κ σ).component other = w.component other)
    (hunwatched : ∀ other, other ≠ id → ∀ key,
      (other, key) ∈ unwatched' ↔ (other, key) ∈ unwatched)
    (hc : w.Fitting pending unwatched' id (({ w with components } : World κ σ).component id)) :
    ({ w with components } : World κ σ).Orderly note pending unwatched' := by
  refine { h with
    document_lt := ?document_lt, cell_lt := ?cell_lt, separate := ?separate, tuned := ?tuned
    patched_lt := ?patched_lt, watched := ?watched, unheard := ?unheard, held := ?held
    watchers := ?watchers, housed := ?housed, apart := ?apart }
  case document_lt =>
    intro other hother
    by_cases he : other = id
    · exact he ▸ hc.document_lt
    · rw [hothers other he]
      exact h.document_lt other (hlt other hother he)
  case cell_lt =>
    intro other key cell
    by_cases he : other = id
    · exact he ▸ hc.cell_lt key cell
    · rw [hothers other he]
      exact h.cell_lt other key cell
  case separate =>
    intro first key second key' cell hkey hkey'
    by_cases he : first = id
    · subst he
      by_cases he' : second = first
      · subst he'
        exact ⟨rfl, hc.separate hkey hkey'⟩
      · rw [hothers second he'] at hkey'
        exact absurd hkey' (hc.foreign key cell hkey second he' key')
    · rw [hothers first he] at hkey
      by_cases he' : second = id
      · subst he'
        exact absurd hkey (hc.foreign key' cell hkey' first he key)
      · rw [hothers second he'] at hkey'
        exact h.separate first key second key' cell hkey hkey'
  case tuned =>
    intro cell s hs other key hkey
    by_cases he : other = id
    · subst he
      exact hc.tuned cell s hs key hkey
    · rw [hothers other he]
      exact h.tuned cell s hs other key hkey
  case patched_lt => exact fun s other key hs => Nat.lt_of_lt_of_le (h.patched_lt s other key hs) hle
  case watched =>
    intro other key cell halive hkey hwatched
    by_cases he : other = id
    · subst he
      exact hc.watched (of_decide_eq_true halive) key cell hkey hwatched
    · unfold isAlive at halive
      rw [hothers other he] at halive hkey
      exact h.watched other key cell halive hkey fun hmem =>
        hwatched ((hunwatched other he key).mpr hmem)
  case unheard =>
    intro other key hmem
    by_cases he : other = id
    · subst he
      exact hc.unheard key hmem
    · exact h.unheard other key ((hunwatched other he key).mp hmem)
  case held =>
    intro s other key halive hs
    by_cases he : other = id
    · subst he
      exact hc.held (of_decide_eq_true halive) s key hs
    · unfold isAlive at halive
      rw [hothers other he] at halive
      exact h.held s other key halive hs
  case watchers =>
    intro other s hs
    by_cases he : other = id
    · subst he
      exact hc.watchers s hs
    · rw [hothers other he] at hs
      exact h.watchers other s hs
  case housed =>
    intro other t ht
    by_cases he : other = id
    · subst he
      exact hc.housed t ht
    · rw [hothers other he] at ht ⊢
      exact h.housed other t ht
  case apart =>
    intro first second t t' hne ht ht'
    by_cases he : first = id
    · subst he
      rw [hothers second hne] at ht' ⊢
      exact hc.apart second t t' hne ht ht'
    · rw [hothers first he] at ht ⊢
      by_cases he' : second = id
      · subst he'
        exact fun hsame => (hc.apart first t' t he ht' ht hsame.symm).symm
      · rw [hothers second he'] at ht' ⊢
        exact h.apart first second t t' hne ht ht'

/-- A change of a component that keeps its document and its store, and revives it not. A new template
is housed beside those of other components. -/
theorem modifyComponent (h : w.Orderly note pending unwatched) {id : ComponentId}
    {f : Component κ → Component κ}
    (hdocument : (f (w.component id)).document = (w.component id).document)
    (hstore : (f (w.component id)).store = (w.component id).store)
    (halive : 0 < (f (w.component id)).holders → 0 < (w.component id).holders)
    (hwatchers : ∀ s ∈ (f (w.component id)).watchers, ∃ key, w.reaction? s = some (.patch id key))
    (hhoused : ∀ t, (f (w.component id)).template = some t →
      t.Housed (w.document (w.component id).document))
    (hapart : ∀ other t t', other ≠ id → (f (w.component id)).template = some t →
      (w.component other).template = some t' →
        (w.component other).document = (w.component id).document →
          t.handles.Disjoint t'.handles) :
    (w.modifyComponent id f).Orderly note pending unwatched := by
  rcases Nat.lt_or_ge id w.components.size with hlt | hge
  · have hfitting := h.fitting hlt
    have hc : w.Fitting pending unwatched id (f (w.component id)) := by
      refine ⟨?document_lt, ?cell_lt, ?separate, ?foreign, ?tuned, fun hpos => ?watched,
        hfitting.unheard, fun hpos => hfitting.held (halive hpos), hwatchers, ?housed, ?apart⟩
      case document_lt => exact hdocument ▸ hfitting.document_lt
      case cell_lt => exact hstore ▸ hfitting.cell_lt
      case separate => exact hstore ▸ hfitting.separate
      case foreign => exact hstore ▸ hfitting.foreign
      case tuned => exact hstore ▸ hfitting.tuned
      case watched => exact hstore ▸ hfitting.watched (halive hpos)
      case housed => exact hdocument ▸ hhoused
      case apart => exact hdocument ▸ hapart
    refine h.withComponents (Nat.le_of_eq Array.size_modify.symm) (fun other hother _ => ?_)
      (fun other hne => component_modifyComponent_of_ne hlt hne f) (fun _ _ _ => Iff.rfl) ?_
    · exact Nat.lt_of_lt_of_eq hother Array.size_modify
    · exact (component_modifyComponent_self hlt f).symm ▸ hc
  · rw [modifyComponent_of_size_le hge]
    exact h

/-- Holding a living component once more. -/
theorem holdComponent (h : w.Orderly note pending unwatched) {id : ComponentId}
    (halive : w.isAlive id = true) : (w.holdComponent id).Orderly note pending unwatched :=
  h.modifyComponent rfl rfl (fun _ => of_decide_eq_true halive) (h.watchers id) (h.housed id)
    (h.apart id)

/-- Watchers of a dead component may be let go. -/
theorem releaseWatchers (h : w.Orderly note pending unwatched) {id : ComponentId}
    (hdead : w.isAlive id = false) {ss : List SubscriberId}
    (hss : ∀ s ∈ ss, ∃ key, w.reaction? s = some (.patch id key)) :
    (ss.foldl World.releaseSubscriber w).Orderly note pending unwatched := by
  induction ss generalizing w with
  | nil => exact h
  | cons s ss ih =>
    obtain ⟨key, hkey⟩ := hss s List.mem_cons_self
    refine ih (h.releaseSubscriber fun other key' hother => ?_) hdead fun t ht => ?_
    · rw [hkey] at hother
      cases hother
      exact hdead
    · obtain ⟨key, hkey⟩ := hss t (List.mem_cons_of_mem _ ht)
      exact ⟨key, (w.reaction?_releaseSubscriber s t).trans hkey⟩

/-- **Letting go of a component**, which lets go of its watchers if it dies. -/
theorem releaseComponent (h : w.Orderly note pending unwatched) (id : ComponentId) :
    (w.releaseComponent id).Orderly note pending unwatched := by
  have hreleased : (w.modifyComponent id fun c => { c with holders := c.holders - 1 }).Orderly note
      pending unwatched :=
    h.modifyComponent rfl rfl (fun hpos => Nat.lt_of_lt_of_le hpos (Nat.sub_le _ _)) (h.watchers id)
      (h.housed id) (h.apart id)
  unfold World.releaseComponent
  dsimp only
  split
  · rename_i hlast
    refine hreleased.releaseWatchers ?_ (h.watchers id)
    have hlt : id < w.components.size :=
      lt_of_isAlive (decide_eq_true (hlast ▸ Nat.zero_lt_one))
    unfold isAlive
    rw [component_modifyComponent_self hlt]
    dsimp only
    rw [hlast]
    rfl
  · exact hreleased

/-- **A component's template is rendered** in new nodes of its document. -/
theorem render (h : w.Orderly note pending unwatched) {id : ComponentId} {d : Document (Action κ)}
    {t : Template} (hgrows : Grows (w.document (w.component id).document) d) (hhoused : t.Housed d)
    (hnew : ∀ node ∈ t.handles, (w.document (w.component id).document).size ≤ node) :
    ((w.setDocument (w.component id).document d).modifyComponent id fun c =>
      { c with template := some t }).Orderly note pending unwatched := by
  have hset := h.setDocument hgrows
  rcases Nat.lt_or_ge id w.components.size with hlt | hge
  · refine hset.modifyComponent rfl rfl (fun h => h) (h.watchers id) ?_ ?_
    · rintro _ ⟨⟩
      show t.Housed ((w.setDocument _ d).document (w.component id).document)
      rw [document_setDocument (h.document_lt id hlt)]
      exact hhoused
    · rintro other _ t' hne ⟨⟩ ht' hsame node hnode hnode'
      have hold := (h.housed other t' ht').lt_of_mem_handles hnode'
      rw [show (w.component other).document = _ from hsame] at hold
      exact absurd (hnew node hnode) (Nat.not_le_of_lt hold)
  · have hge' : (w.setDocument (w.component id).document d).components.size ≤ id := hge
    rw [modifyComponent_of_size_le hge']
    exact hset

end Orderly

end World

end BoundView
