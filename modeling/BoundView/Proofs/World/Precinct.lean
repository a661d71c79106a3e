import BoundView.Component.Mount
import BoundView.Proofs.Rendering.Housing
import BoundView.Proofs.World.Tables
import Mathlib.Data.List.Forall2

/-!
# The precinct of a component

What belongs to a component in a world is its record, the cells of its keys, the subscribers that hear
them and its watchers, and the nodes at and below its root. User code that acts for the component may
keep notes of its own in the caller's state, and has its own handlers; a **division** says which.

A component **stands** when all of this fits together. What is done **within** a component leaves the
rest of the world alone. Two worlds are **alike** for a component when they have the same there, up to
the numbers of subscribers: these depend on what others have subscribed meanwhile.

Main statements: the laws of `Within` and `Alike`, one for each edit that a component's own activity
makes.
-/

namespace BoundView

open BoundView.Dom (Document NodeId)
open BoundView.Dom.Document (Grows SameLinks)
open Relation (ReflTransGen)
open List (Forall₂)

theorem forall₂_of_mem {α β : Type} {R S : α → β → Prop} {as : List α} {bs : List β}
    (h : Forall₂ R as bs) (hS : ∀ a ∈ as, ∀ b ∈ bs, R a b → S a b) : Forall₂ S as bs := by
  induction h with
  | nil => exact .nil
  | cons hab _ ih =>
    refine .cons (hS _ List.mem_cons_self _ List.mem_cons_self hab) (ih fun a ha b hb => ?_)
    exact hS a (List.mem_cons_of_mem _ ha) b (List.mem_cons_of_mem _ hb)

/-- **A division of the user code**: which handlers may hear the keys of a component, which may be its
methods, and which part of the caller's state belongs to it. -/
structure Division (κ σ τ : Type) where
  listens : ComponentId → κ → Prop
  answers : ComponentId → κ → Prop
  memory : ComponentId → σ → τ

variable {κ σ τ : Type}

/-- A reaction that belongs to a component. -/
def Reaction.Belongs (division : Division κ σ τ) (id : ComponentId) : Reaction κ → Prop
  | .handler run => division.listens id run
  | .patch other _ => other = id

namespace World

/-! ## What belongs to a component -/

/-- The cells of a component's keys. -/
def Owns (w : World κ σ) (id : ComponentId) (cell : CellId) : Prop :=
  ∃ key, (w.component id).store.cell? key = some cell

/-- **Those who act for a component**: its watchers and whoever hears its keys. -/
def Crew (w : World κ σ) (id : ComponentId) (s : SubscriberId) : Prop :=
  s ∈ (w.component id).watchers ∨ ∃ cell, w.Owns id cell ∧ s ∈ (w.cell cell).subscribers

/-- The document of a component. -/
def page (w : World κ σ) (id : ComponentId) : Document (Action κ) :=
  w.document (w.component id).document

/-- **The nodes of a component**: its root and what is below it. -/
def Inside (w : World κ σ) (id : ComponentId) (node : NodeId) : Prop :=
  ReflTransGen (w.page id).Link node (w.component id).root

/-- **A component that stands.** -/
structure Stands (division : Division κ σ τ) (id : ComponentId) (w : World κ σ) : Prop where
  there : id < w.components.size
  document_lt : (w.component id).document < w.documents.size
  cell_lt : ∀ cell, w.Owns id cell → cell < w.cells.size
  crew : ∀ s, w.Crew id s → ∃ reaction, w.reaction? s = some reaction ∧ reaction.Belongs division id
  methods : ∀ name run, (w.component id).method? name = some run → division.answers id run
  coherent : (w.page id).Coherent
  root_lt : (w.component id).root < (w.page id).size
  housed : ∀ t, (w.component id).template = some t → t.Housed (w.page id)
  inside : ∀ t, (w.component id).template = some t → ∀ node ∈ t.handles, w.Inside id node

/-- **What is done within a component** changes the counts of the component, its cells, its crew, its
part of the caller's state and what its rendered nodes hold. There may be new subscribers. -/
structure Within (division : Division κ σ τ) (id : ComponentId) (w w' : World κ σ) : Prop where
  events : w'.events = w.events
  memory : ∀ other, other ≠ id → division.memory other w'.host = division.memory other w.host
  components : w'.components.size = w.components.size
  component : ∃ scans holders, w'.component id = { w.component id with scans, holders }
  others : ∀ other, other ≠ id → w'.component other = w.component other
  cells : w'.cells.size = w.cells.size
  foreign : ∀ cell, ¬ w.Owns id cell → w'.cell cell = w.cell cell
  subscribers : w.subscribers.size ≤ w'.subscribers.size
  strangers : ∀ s, s < w.subscribers.size → ¬ w.Crew id s → w'.subscribers[s]? = w.subscribers[s]?
  reactions : ∀ s, s < w.subscribers.size → w'.reaction? s = w.reaction? s
  crew : ∀ s, w'.Crew id s → w.Crew id s ∨
    w.subscribers.size ≤ s ∧ ∃ reaction, w'.reaction? s = some reaction ∧ reaction.Belongs division id
  documents : w'.documents.size = w.documents.size
  elsewhere : ∀ other, other ≠ (w.component id).document → w'.document other = w.document other
  links : SameLinks (w.page id) (w'.page id)
  grows : Grows (w.page id) (w'.page id)
  coherent : (w.page id).Coherent → (w'.page id).Coherent
  content : ∀ node, (∀ t, (w.component id).template = some t → node ∉ t.handles) →
    (w'.page id).content node = (w.page id).content node

end World

/-- **Cells that are alike** when these subscribers are the same. -/
structure Cell.Alike (ρ : SubscriberId → SubscriberId → Prop) (c c' : Cell) : Prop where
  value : c'.value = c.value
  version : c'.version = c.version
  subscribers : Forall₂ ρ c.subscribers c'.subscribers

namespace World

/-- **Worlds that are alike for a component** when these subscribers are the same. -/
structure Alike (division : Division κ σ τ) (id : ComponentId)
    (ρ : SubscriberId → SubscriberId → Prop) (w u : World κ σ) : Prop where
  memory : division.memory id u.host = division.memory id w.host
  events : u.events = w.events
  component : ∃ watchers, u.component id = { w.component id with watchers }
  watchers : Forall₂ ρ (w.component id).watchers (u.component id).watchers
  cells : ∀ cell, w.Owns id cell → (w.cell cell).Alike ρ (u.cell cell)
  same : ∀ s s', ρ s s' → u.subscribers[s']? = w.subscribers[s]?
  belongs : ∀ s s', ρ s s' →
    ∃ reaction, w.reaction? s = some reaction ∧ reaction.Belongs division id
  matched : ∀ s s' t t', ρ s s' → ρ t t' → (s = t ↔ s' = t')
  links : SameLinks (w.page id) (u.page id)
  content : ∀ node, w.Inside id node → (u.page id).content node = (w.page id).content node

/-! ## Standing -/

variable {division : Division κ σ τ} {id : ComponentId} {w₀ w w' u u' : World κ σ}

theorem owns_congr {cell : CellId} (h : (w'.component id).store = (w.component id).store) :
    w'.Owns id cell ↔ w.Owns id cell := by
  unfold Owns
  rw [h]

/-- **A subscriber that the activity of a component may change**: one of its crew, or a new one. -/
def Free (w : World κ σ) (id : ComponentId) (s : SubscriberId) : Prop :=
  w.Crew id s ∨ w.subscribers.size ≤ s

theorem Stands.lt_of_crew (h : w.Stands division id) {s : SubscriberId} (hs : w.Crew id s) :
    s < w.subscribers.size := by
  obtain ⟨_, hreaction, _⟩ := h.crew s hs
  exact lt_of_reaction? hreaction

namespace Within

theorem refl (division : Division κ σ τ) (id : ComponentId) (w : World κ σ) :
    w.Within division id w where
  events := rfl
  memory _ _ := rfl
  components := rfl
  component := ⟨_, _, rfl⟩
  others _ _ := rfl
  cells := rfl
  foreign _ _ := rfl
  subscribers := Nat.le_refl _
  strangers _ _ _ := rfl
  reactions _ _ := rfl
  crew _ h := .inl h
  documents := rfl
  elsewhere _ _ := rfl
  links := .refl _
  grows := .refl _
  coherent h := h
  content _ _ := rfl

theorem owns (h : w.Within division id w') {cell : CellId} : w'.Owns id cell ↔ w.Owns id cell := by
  obtain ⟨scans, holders, hcomponent⟩ := h.component
  exact owns_congr (by rw [hcomponent])

theorem document (h : w.Within division id w') :
    (w'.component id).document = (w.component id).document := by
  obtain ⟨scans, holders, hcomponent⟩ := h.component
  rw [hcomponent]

theorem root (h : w.Within division id w') : (w'.component id).root = (w.component id).root := by
  obtain ⟨scans, holders, hcomponent⟩ := h.component
  rw [hcomponent]

theorem template (h : w.Within division id w') :
    (w'.component id).template = (w.component id).template := by
  obtain ⟨scans, holders, hcomponent⟩ := h.component
  rw [hcomponent]

theorem free (h : w.Within division id w') {s : SubscriberId} (hs : w'.Free id s) : w.Free id s := by
  rcases hs with hs | hs
  · exact (h.crew s hs).imp_right fun hnew => hnew.1
  · exact .inr (Nat.le_trans h.subscribers hs)

theorem inside (h : w.Within division id w') {node : NodeId} :
    w'.Inside id node ↔ w.Inside id node := by
  have hlink : (w'.page id).Link = (w.page id).Link := by
    funext c p
    exact congrArg (· = some p) (h.links.parent? c)
  unfold Inside
  rw [hlink, h.root]

/-- **A component goes on standing** through what is done within it. -/
theorem stands (h : w.Within division id w') (hw : w.Stands division id) : w'.Stands division id := by
  refine ⟨?there, ?document_lt, ?cell_lt, ?crew, ?methods, h.coherent hw.coherent, ?root_lt, ?housed,
    ?inside⟩
  case there =>
    rw [h.components]
    exact hw.there
  case document_lt =>
    rw [h.document, h.documents]
    exact hw.document_lt
  case cell_lt =>
    intro cell hcell
    rw [h.cells]
    exact hw.cell_lt cell (h.owns.mp hcell)
  case crew =>
    intro s hs
    rcases h.crew s hs with hs | ⟨_, hreaction⟩
    · rw [h.reactions s (hw.lt_of_crew hs)]
      exact hw.crew s hs
    · exact hreaction
  case methods =>
    obtain ⟨scans, holders, hcomponent⟩ := h.component
    rw [hcomponent]
    exact hw.methods
  case root_lt =>
    rw [h.root]
    exact h.grows.lt_size hw.root_lt
  case housed =>
    intro t ht
    rw [h.template] at ht
    exact (hw.housed t ht).grows h.grows
  case inside =>
    intro t ht node hnode
    rw [h.template] at ht
    exact h.inside.mpr (hw.inside t ht node hnode)

theorem trans (h : w₀.Within division id w) (h' : w.Within division id w') :
    w₀.Within division id w' where
  events := h'.events.trans h.events
  memory other hother := (h'.memory other hother).trans (h.memory other hother)
  components := h'.components.trans h.components
  component := by
    obtain ⟨scans, holders, hcomponent⟩ := h'.component
    obtain ⟨_, _, hcomponent₀⟩ := h.component
    exact ⟨scans, holders, by rw [hcomponent, hcomponent₀]⟩
  others other hother := (h'.others other hother).trans (h.others other hother)
  cells := h'.cells.trans h.cells
  foreign cell hcell := (h'.foreign cell (h.owns.not.mpr hcell)).trans (h.foreign cell hcell)
  subscribers := Nat.le_trans h.subscribers h'.subscribers
  strangers s hlt hs := by
    refine (h'.strangers s (Nat.lt_of_lt_of_le hlt h.subscribers) fun hcrew => ?_).trans
      (h.strangers s hlt hs)
    rcases h.crew s hcrew with hold | ⟨hnew, _⟩
    · exact hs hold
    · exact Nat.lt_irrefl _ (Nat.lt_of_lt_of_le hlt hnew)
  reactions s hlt :=
    (h'.reactions s (Nat.lt_of_lt_of_le hlt h.subscribers)).trans (h.reactions s hlt)
  crew s hs := by
    rcases h'.crew s hs with hs | ⟨hnew, hreaction⟩
    · refine (h.crew s hs).imp_right ?_
      rintro ⟨hnew, reaction, hreaction, hbelongs⟩
      exact ⟨hnew, reaction, (h'.reactions s (lt_of_reaction? hreaction)).trans hreaction, hbelongs⟩
    · exact .inr ⟨Nat.le_trans h.subscribers hnew, hreaction⟩
  documents := h'.documents.trans h.documents
  elsewhere other hother :=
    (h'.elsewhere other (h.document.symm ▸ hother)).trans (h.elsewhere other hother)
  links := h.links.trans h'.links
  grows := h.grows.trans h'.grows
  coherent hw := h'.coherent (h.coherent hw)
  content node hnode := by
    refine (h'.content node fun t ht => ?_).trans (h.content node hnode)
    exact hnode t (h.template ▸ ht)

/-! ## Edits within a component -/

theorem withTraces (h : w₀.Within division id w) (traces : Array Trace) :
    w₀.Within division id { w with traces } := { h with }

theorem modifyHost (h : w₀.Within division id w) {f : σ → σ}
    (hf : ∀ s, ∀ other, other ≠ id → division.memory other (f s) = division.memory other s) :
    w₀.Within division id (w.modifyHost f) :=
  { h with memory := fun other hother => (hf w.host other hother).trans (h.memory other hother) }

/-- **A cell of the component is written.** -/
theorem storeValue (h : w₀.Within division id w) {cell : CellId} (hcell : w.Owns id cell)
    (value : Value) : w₀.Within division id (w.storeValue cell value) := by
  refine h.trans { refl division id w with cells := ?_, foreign := ?_, crew := ?_ }
  · exact size_cells_storeValue w cell value
  · intro other hother
    have hne : other ≠ cell := fun he => hother (he ▸ hcell)
    rcases Nat.lt_or_ge cell w.cells.size with hlt | hge
    · rw [cell_storeValue hlt, if_neg hne]
    · rw [storeValue_of_size_le hge]
  · rintro s (hs | ⟨other, hother, hs⟩)
    · exact .inl (.inl hs)
    · refine .inl (.inr ⟨other, hother, ?_⟩)
      rcases Nat.lt_or_ge cell w.cells.size with hlt | hge
      · rw [cell_storeValue hlt] at hs
        split at hs
        · rename_i he
          rw [he]
          exact (List.mem_filter.mp hs).1
        · exact hs
      · rw [storeValue_of_size_le hge] at hs
        exact hs

/-- **A free subscriber is held or let go.** -/
theorem modifyHolders (h : w₀.Within division id w) {s : SubscriberId} (hs : w₀.Free id s)
    (f : Nat → Nat) : w₀.Within division id (w.modifyHolders s f) := by
  refine { h with subscribers := ?_, strangers := ?_, reactions := ?_, crew := ?_ }
  · exact Nat.le_trans h.subscribers (Nat.le_of_eq Array.size_modify.symm)
  · intro t hlt ht
    have hne : s ≠ t := by
      rintro rfl
      rcases hs with hs | hs
      · exact ht hs
      · exact Nat.lt_irrefl _ (Nat.lt_of_lt_of_le hlt hs)
    rw [getElem?_modifyHolders, if_neg hne]
    exact h.strangers t hlt ht
  · intro t hlt
    rw [reaction?_modifyHolders]
    exact h.reactions t hlt
  · intro t ht
    rw [reaction?_modifyHolders]
    exact h.crew t ht

theorem releaseSubscribers (h : w₀.Within division id w) {ss : List SubscriberId}
    (hss : ∀ s ∈ ss, w₀.Free id s) : w₀.Within division id (ss.foldl World.releaseSubscriber w) := by
  induction ss generalizing w with
  | nil => exact h
  | cons s ss ih =>
    obtain ⟨hs, hss⟩ := List.forall_mem_cons.mp hss
    exact ih (h.modifyHolders hs _) hss

/-- **The counts of the component change.** -/
theorem count (h : w₀.Within division id w) (hid : id < w.components.size) (f g : Nat → Nat) :
    w₀.Within division id (w.modifyComponent id fun c =>
      { c with scans := f c.scans, holders := g c.holders }) := by
  have hcomponent := component_modifyComponent_self hid fun c : Component κ =>
    { c with scans := f c.scans, holders := g c.holders }
  have hpage : (w.modifyComponent id fun c =>
      { c with scans := f c.scans, holders := g c.holders }).page id = w.page id := by
    unfold page
    rw [hcomponent]
    rfl
  refine h.trans { refl division id w with
    components := Array.size_modify
    component := ⟨_, _, hcomponent⟩
    others := fun other hother => component_modifyComponent_of_ne hid hother _
    crew := ?_, links := ?_, grows := ?_, coherent := ?_, content := ?_ }
  · rintro s (hs | ⟨cell, hcell, hs⟩)
    · rw [hcomponent] at hs
      exact .inl (.inl hs)
    · exact .inl (.inr ⟨cell, (owns_congr (by rw [hcomponent])).mp hcell, hs⟩)
  · rw [hpage]
    exact .refl _
  · rw [hpage]
    exact .refl _
  · rw [hpage]
    exact fun hcoherent => hcoherent
  · rw [hpage]
    exact fun _ _ => rfl

/-- **What the component has rendered is written to.** -/
theorem setPage (h : w₀.Within division id w) (hw : w.Stands division id) {d : Document (Action κ)}
    (hlinks : SameLinks (w.page id) d) (hgrows : Grows (w.page id) d)
    (hcoherent : (w.page id).Coherent → d.Coherent)
    (hcontent : ∀ node, (∀ t, (w.component id).template = some t → node ∉ t.handles) →
      d.content node = (w.page id).content node) :
    w₀.Within division id (w.setDocument (w.component id).document d) := by
  have hpage : (w.setDocument (w.component id).document d).page id = d :=
    document_setDocument hw.document_lt d
  refine h.trans { refl division id w with
    documents := Array.size_setIfInBounds
    elsewhere := fun other hother => document_setDocument_of_ne hother d
    links := ?_, grows := ?_, coherent := ?_, content := ?_ }
  · rw [hpage]
    exact hlinks
  · rw [hpage]
    exact hgrows
  · rw [hpage]
    exact hcoherent
  · rw [hpage]
    exact hcontent

/-- **One of the component's own hears one of its keys** from now on. -/
theorem subscribe (h : w₀.Within division id w) (hw : w.Stands division id) {cell : CellId}
    (hcell : w.Owns id cell) {reaction : Reaction κ} (hbelongs : reaction.Belongs division id) :
    w₀.Within division id (w.subscribe cell reaction) := by
  have hlt := hw.cell_lt cell hcell
  refine h.trans { refl division id w with
    cells := size_cells_modifyCell _ _ _
    foreign := ?_, subscribers := ?_, strangers := ?_, reactions := ?_, crew := ?_ }
  · intro other hother
    have hne : other ≠ cell := fun he => hother (he ▸ hcell)
    rw [cell_subscribe hlt, if_neg hne]
  · show w.subscribers.size ≤ (w.subscribers.push _).size
    rw [Array.size_push]
    exact Nat.le_succ _
  · intro s hs _
    rw [getElem?_subscribe, if_neg (Nat.ne_of_lt hs)]
  · intro s hs
    rw [reaction?_subscribe, if_neg (Nat.ne_of_lt hs)]
  · rintro s (hs | ⟨other, hother, hs⟩)
    · exact .inl (.inl hs)
    · rcases (mem_subscribers_subscribe hlt).mp hs with hs | ⟨rfl, _⟩
      · exact .inl (.inr ⟨other, hother, hs⟩)
      · refine .inr ⟨Nat.le_refl _, reaction, ?_, hbelongs⟩
        rw [reaction?_subscribe, if_pos rfl]

theorem releaseComponent (h : w₀.Within division id w) (hid : id < w.components.size) :
    w₀.Within division id (w.releaseComponent id) := by
  have hreleased : w₀.Within division id
      (w.modifyComponent id fun c => { c with holders := c.holders - 1 }) :=
    h.count hid (fun n => n) (· - 1)
  unfold World.releaseComponent
  dsimp only
  split
  · exact hreleased.releaseSubscribers fun s hs => h.free (.inl (.inl hs))
  · exact hreleased

end Within

/-! ## Being alike -/

variable {ρ : SubscriberId → SubscriberId → Prop}

namespace Alike

theorem refl {w : World κ σ} (h : w.Stands division id) :
    w.Alike division id (fun s s' => w.Crew id s ∧ s = s') w where
  memory := rfl
  events := rfl
  component := ⟨_, rfl⟩
  watchers := List.forall₂_same.mpr fun s hs => ⟨.inl hs, rfl⟩
  cells cell hcell := ⟨rfl, rfl, List.forall₂_same.mpr fun s hs => ⟨.inr ⟨cell, hcell, hs⟩, rfl⟩⟩
  same s s' hs := by rw [hs.2]
  belongs s s' hs := h.crew s hs.1
  matched s s' t t' hs ht := by rw [hs.2, ht.2]
  links := .refl _
  content _ _ := rfl

section

variable (h : w.Alike division id ρ u)

include h

theorem store : (u.component id).store = (w.component id).store := by
  obtain ⟨watchers, hcomponent⟩ := h.component
  rw [hcomponent]

theorem root : (u.component id).root = (w.component id).root := by
  obtain ⟨watchers, hcomponent⟩ := h.component
  rw [hcomponent]

theorem template : (u.component id).template = (w.component id).template := by
  obtain ⟨watchers, hcomponent⟩ := h.component
  rw [hcomponent]

theorem options : (u.component id).options = (w.component id).options := by
  obtain ⟨watchers, hcomponent⟩ := h.component
  rw [hcomponent]

theorem scans : (u.component id).scans = (w.component id).scans := by
  obtain ⟨watchers, hcomponent⟩ := h.component
  rw [hcomponent]

theorem holders : (u.component id).holders = (w.component id).holders := by
  obtain ⟨watchers, hcomponent⟩ := h.component
  rw [hcomponent]

theorem isAlive : u.isAlive id = w.isAlive id := by
  unfold World.isAlive
  rw [h.holders]

theorem method? (name : String) : (u.component id).method? name = (w.component id).method? name := by
  obtain ⟨watchers, hcomponent⟩ := h.component
  rw [hcomponent]
  rfl

theorem value? : u.value? (u.component id).store = w.value? (w.component id).store := by
  funext key
  unfold World.value?
  rw [h.store]
  cases hcell : (w.component id).store.cell? key with
  | none => rfl
  | some cell => exact congrArg some (h.cells cell ⟨key, hcell⟩).value

theorem lookup : u.lookup (u.component id).store = w.lookup (w.component id).store := by
  unfold World.lookup
  rw [h.value?]

theorem owns {cell : CellId} : u.Owns id cell ↔ w.Owns id cell := owns_congr h.store

theorem reaction? {s s' : SubscriberId} (hs : ρ s s') : u.reaction? s' = w.reaction? s := by
  unfold World.reaction?
  rw [h.same s s' hs]

theorem isLive {s s' : SubscriberId} (hs : ρ s s') : u.isLive s' = w.isLive s := by
  unfold World.isLive subscriberHolders
  rw [h.same s s' hs]

theorem there {s s' : SubscriberId} (hs : ρ s s') : s < w.subscribers.size := by
  obtain ⟨_, hreaction, _⟩ := h.belongs s s' hs
  exact lt_of_reaction? hreaction

/-- The other subscriber is there as well. -/
theorem there' {s s' : SubscriberId} (hs : ρ s s') : s' < u.subscribers.size := by
  have hsame := h.same s s' hs
  rw [Array.getElem?_eq_getElem (h.there hs)] at hsame
  exact (Array.getElem?_eq_some_iff.mp hsame).1

/-- Subscribers that are not of the crew need not be the same. -/
theorem among {ρ' : SubscriberId → SubscriberId → Prop}
    (hfewer : ∀ s s', ρ' s s' → ρ s s')
    (hcrew : ∀ s s', w.Crew id s → u.Crew id s' → ρ s s' → ρ' s s') : w.Alike division id ρ' u :=
  { h with
    watchers := forall₂_of_mem h.watchers fun s hs s' hs' => hcrew s s' (.inl hs) (.inl hs')
    cells := fun cell hcell =>
      { h.cells cell hcell with
        subscribers := forall₂_of_mem (h.cells cell hcell).subscribers fun s hs s' hs' =>
          hcrew s s' (.inr ⟨cell, hcell, hs⟩) (.inr ⟨cell, h.owns.mpr hcell, hs'⟩) }
    same := fun s s' hs => h.same s s' (hfewer s s' hs)
    belongs := fun s s' hs => h.belongs s s' (hfewer s s' hs)
    matched := fun s s' t t' hs ht => h.matched s s' t t' (hfewer s s' hs) (hfewer t t' ht) }

/-! ### Edits on both sides -/

theorem withTraces (traces traces' : Array Trace) :
    ({ w with traces } : World κ σ).Alike division id ρ { u with traces := traces' } := { h with }

/-- User code changes what belongs to the component, and reads nothing else. -/
theorem modifyHost {f g : σ → σ} (hf : ∀ s s', division.memory id s' = division.memory id s →
    division.memory id (g s') = division.memory id (f s)) :
    (w.modifyHost f).Alike division id ρ (u.modifyHost g) :=
  { h with memory := hf _ _ h.memory }

/-- **A cell is written.** -/
theorem storeValue (hw : w.Stands division id) (hu : u.Stands division id) {cell : CellId}
    (hcell : w.Owns id cell) (value : Value) :
    (w.storeValue cell value).Alike division id ρ (u.storeValue cell value) := by
  refine { h with cells := fun other hother => ?_ }
  have hother : w.Owns id other := hother
  rw [cell_storeValue (hw.cell_lt cell hcell), cell_storeValue (hu.cell_lt cell (h.owns.mpr hcell))]
  obtain ⟨_, hversion, hheard⟩ := h.cells cell hcell
  by_cases he : other = cell
  · rw [if_pos he, if_pos he]
    refine ⟨rfl, congrArg (· + 1) hversion, ?_⟩
    refine List.rel_filter (fun s s' hs => ?_) hheard
    show w.isLive s = true ↔ u.isLive s' = true
    rw [h.isLive hs]
  · rw [if_neg he, if_neg he]
    exact h.cells other hother

/-- **A subscriber is held or let go.** -/
theorem modifyHolders {s s' : SubscriberId} (hs : ρ s s') (f : Nat → Nat) :
    (w.modifyHolders s f).Alike division id ρ (u.modifyHolders s' f) := by
  refine { h with same := ?_, belongs := ?_ }
  · intro t t' ht
    rw [getElem?_modifyHolders, getElem?_modifyHolders, h.same t t' ht]
    simp only [h.matched s s' t t' hs ht]
  · intro t t' ht
    rw [reaction?_modifyHolders]
    exact h.belongs t t' ht

/-- **The counts of the component change.** -/
theorem count (hw : id < w.components.size) (hu : id < u.components.size) (f g : Nat → Nat) :
    (w.modifyComponent id fun c =>
      { c with scans := f c.scans, holders := g c.holders }).Alike division id ρ
        (u.modifyComponent id fun c => { c with scans := f c.scans, holders := g c.holders }) := by
  have hmine := component_modifyComponent_self hw fun c : Component κ =>
    { c with scans := f c.scans, holders := g c.holders }
  have hyours := component_modifyComponent_self hu fun c : Component κ =>
    { c with scans := f c.scans, holders := g c.holders }
  obtain ⟨watchers, hcomponent⟩ := h.component
  have hpage : (w.modifyComponent id fun c =>
      { c with scans := f c.scans, holders := g c.holders }).page id = w.page id := by
    unfold page
    rw [hmine]
    rfl
  have hpage' : (u.modifyComponent id fun c =>
      { c with scans := f c.scans, holders := g c.holders }).page id = u.page id := by
    unfold page
    rw [hyours]
    rfl
  refine { h with component := ⟨watchers, ?_⟩, watchers := ?_, cells := ?_, links := ?_, content := ?_ }
  · rw [hmine, hyours, hcomponent]
  · rw [hmine, hyours]
    exact h.watchers
  · intro cell hcell
    exact h.cells cell ((owns_congr (by rw [hmine])).mp hcell)
  · rw [hpage, hpage']
    exact h.links
  · intro node hnode
    rw [hpage, hpage']
    refine h.content node ?_
    unfold Inside at hnode
    rw [hpage, hmine] at hnode
    exact hnode

/-- **What the component has rendered is written to**, in both worlds to the same effect. -/
theorem setPage (hw : w.Stands division id) (hu : u.Stands division id) {d e : Document (Action κ)}
    (hd : SameLinks (w.page id) d) (he : SameLinks (u.page id) e)
    (hcontent : ∀ node, w.Inside id node → e.content node = d.content node) :
    (w.setDocument (w.component id).document d).Alike division id ρ
      (u.setDocument (u.component id).document e) := by
  have hpage : (w.setDocument (w.component id).document d).page id = d :=
    document_setDocument hw.document_lt d
  have hpage' : (u.setDocument (u.component id).document e).page id = e :=
    document_setDocument hu.document_lt e
  refine { h with links := ?_, content := ?_ }
  · rw [hpage, hpage']
    exact ⟨(he.size.trans h.links.size).trans hd.size.symm,
      fun n => ((he.parent? n).trans (h.links.parent? n)).trans (hd.parent? n).symm,
      fun n => ((he.children n).trans (h.links.children n)).trans (hd.children n).symm⟩
  · intro node hnode
    rw [hpage, hpage']
    refine hcontent node ?_
    have hlink : d.Link = (w.page id).Link := by
      funext c p
      exact congrArg (· = some p) (hd.parent? c)
    unfold Inside at hnode
    rw [hpage, hlink] at hnode
    exact hnode

/-- **A handler hears a key** from now on. The new subscribers are the same one. -/
theorem subscribe (hw : w.Stands division id) (hu : u.Stands division id) {cell : CellId}
    (hcell : w.Owns id cell) {reaction : Reaction κ} (hbelongs : reaction.Belongs division id) :
    (w.subscribe cell reaction).Alike division id
      (fun s s' => ρ s s' ∨ s = w.subscribers.size ∧ s' = u.subscribers.size)
      (u.subscribe cell reaction) := by
  refine { h with watchers := ?_, cells := ?_, same := ?_, belongs := ?_, matched := ?_ }
  · exact h.watchers.imp fun s s' hs => .inl hs
  · intro other hother
    have hother : w.Owns id other := hother
    obtain ⟨hvalue, hversion, hheard⟩ := h.cells other hother
    have hheard' := hheard.imp fun s s' (hs : ρ s s') =>
      (.inl hs : ρ s s' ∨ s = w.subscribers.size ∧ s' = u.subscribers.size)
    rw [cell_subscribe (hw.cell_lt cell hcell), cell_subscribe (hu.cell_lt cell (h.owns.mpr hcell))]
    by_cases he : other = cell
    · subst he
      rw [if_pos rfl, if_pos rfl]
      exact ⟨hvalue, hversion, List.rel_append hheard' (.cons (.inr ⟨rfl, rfl⟩) .nil)⟩
    · rw [if_neg he, if_neg he]
      exact ⟨hvalue, hversion, hheard'⟩
  · rintro s s' (hs | ⟨rfl, rfl⟩)
    · rw [getElem?_subscribe, getElem?_subscribe, if_neg (Nat.ne_of_lt (h.there hs)),
        if_neg (Nat.ne_of_lt (h.there' hs))]
      exact h.same s s' hs
    · rw [getElem?_subscribe, getElem?_subscribe, if_pos rfl, if_pos rfl]
  · rintro s s' (hs | ⟨rfl, _⟩)
    · obtain ⟨old, hold, hbelongs'⟩ := h.belongs s s' hs
      exact ⟨old, reaction?_subscribe_of_eq_some hold cell reaction, hbelongs'⟩
    · exact ⟨reaction, (w.reaction?_subscribe cell reaction _).trans (if_pos rfl), hbelongs⟩
  · rintro s s' t t' (hs | ⟨rfl, rfl⟩) (ht | ⟨rfl, rfl⟩)
    · exact h.matched s s' t t' hs ht
    · exact iff_of_false (Nat.ne_of_lt (h.there hs)) (Nat.ne_of_lt (h.there' hs))
    · exact iff_of_false (Nat.ne_of_gt (h.there ht)) (Nat.ne_of_gt (h.there' ht))
    · exact iff_of_true rfl rfl

end

theorem releaseSubscribers (h : w.Alike division id ρ u) {ss ss' : List SubscriberId}
    (hss : Forall₂ ρ ss ss') :
    (ss.foldl World.releaseSubscriber w).Alike division id ρ
      (ss'.foldl World.releaseSubscriber u) := by
  induction hss generalizing w u with
  | nil => exact h
  | cons hs _ ih => exact ih (h.modifyHolders hs _)

theorem releaseComponent (h : w.Alike division id ρ u) (hw : id < w.components.size)
    (hu : id < u.components.size) :
    (w.releaseComponent id).Alike division id ρ (u.releaseComponent id) := by
  have hreleased := h.count hw hu (fun n => n) (· - 1)
  unfold World.releaseComponent
  dsimp only
  rw [h.holders]
  split
  · exact hreleased.releaseSubscribers h.watchers
  · exact hreleased

end Alike

end World

end BoundView
