import BoundView.Proofs.World.Precinct

/-!
# Components side by side

A component keeps **clear** of another when they share no cell and no subscriber and it has rendered
nothing in the precinct of the other. Each renders below its own root, so that is how it is when neither
root contains the other. Then whatever is done within the component leaves the other alone.

Main statements: `Stands.clear`, `Clear.leaves`, `Clear.alike`, `Neighbours.within`.
-/

namespace BoundView

open BoundView.Dom (Document NodeId)
open BoundView.Dom.Document (Grows SameLinks)

namespace World

variable {κ σ τ : Type} {division : Division κ σ τ} {id : ComponentId} {w w' u : World κ σ}
  {ρ : SubscriberId → SubscriberId → Prop}

/-- **A component is left alone**: nothing in its precinct is another, though the document may have
changed around it. -/
structure Leaves (id : ComponentId) (w w' : World κ σ) : Prop where
  component : w'.component id = w.component id
  components : w.components.size ≤ w'.components.size
  documents : w.documents.size ≤ w'.documents.size
  cells : w.cells.size ≤ w'.cells.size
  cell : ∀ cell, w.Owns id cell → w'.cell cell = w.cell cell
  crew : ∀ s, w.Crew id s → w'.subscribers[s]? = w.subscribers[s]?
  grows : Grows (w.page id) (w'.page id)
  coherent : (w.page id).Coherent → (w'.page id).Coherent
  inside : ∀ node, node < (w.page id).size → (w'.Inside id node ↔ w.Inside id node)

namespace Leaves

variable (h : w.Leaves id w')

include h

theorem owns {cell : CellId} : w'.Owns id cell ↔ w.Owns id cell := owns_congr (by rw [h.component])

theorem crew_iff {s : SubscriberId} : w'.Crew id s ↔ w.Crew id s := by
  unfold Crew
  rw [h.component]
  refine or_congr_right (exists_congr fun cell => ?_)
  rw [h.owns]
  exact and_congr_right fun hcell => by rw [h.cell cell hcell]

/-- **A component that is left alone goes on standing.** -/
theorem stands (hw : w.Stands division id) : w'.Stands division id := by
  refine ⟨Nat.lt_of_lt_of_le hw.there h.components, ?_, ?_, ?_, ?_, h.coherent hw.coherent, ?_, ?_,
    ?_⟩
  · rw [h.component]
    exact Nat.lt_of_lt_of_le hw.document_lt h.documents
  · exact fun cell hcell => Nat.lt_of_lt_of_le (hw.cell_lt cell (h.owns.mp hcell)) h.cells
  · intro s hs
    unfold World.reaction?
    rw [h.crew s (h.crew_iff.mp hs)]
    exact hw.crew s (h.crew_iff.mp hs)
  · rw [h.component]
    exact hw.methods
  · rw [h.component]
    exact h.grows.lt_size hw.root_lt
  · intro t ht
    rw [h.component] at ht
    exact (hw.housed t ht).grows h.grows
  · intro t ht node hnode
    rw [h.component] at ht
    exact (h.inside node ((hw.housed t ht).lt_of_mem_handles hnode)).mpr (hw.inside t ht node hnode)

end Leaves

/-- **A component that keeps clear of another**: they share no cell and no subscriber, and it has rendered
nothing in the precinct of the other. -/
structure Clear (id other : ComponentId) (w : World κ σ) : Prop where
  cells : ∀ cell, w.Owns id cell → ¬ w.Owns other cell
  crew : ∀ s, w.Crew id s → ¬ w.Crew other s
  nodes : (w.component id).document = (w.component other).document →
    ∀ t, (w.component id).template = some t → ∀ node ∈ t.handles, ¬ w.Inside other node

/-- **Roots that lie beside each other**: if they are in one document, neither is above the other there. -/
def Beside (id other : ComponentId) (w : World κ σ) : Prop :=
  (w.component id).document = (w.component other).document →
    ¬ w.Inside id (w.component other).root ∧ ¬ w.Inside other (w.component id).root

theorem Beside.symm {other : ComponentId} (h : w.Beside id other) : w.Beside other id :=
  fun hsame => (h hsame.symm).symm

/-- **Of two roots above one node, one lies above the other.** So components whose roots lie beside each
other keep clear. -/
theorem Stands.clear {other : ComponentId} (hw : w.Stands division id)
    (hcells : ∀ cell, w.Owns id cell → ¬ w.Owns other cell)
    (hcrew : ∀ s, w.Crew id s → ¬ w.Crew other s) (hroots : w.Beside id other) :
    w.Clear id other := by
  refine ⟨hcells, hcrew, fun hsame t ht node hnode htheirs => ?_⟩
  have hours := hw.inside t ht node hnode
  obtain ⟨hother, hself⟩ := hroots hsame
  have hpage : w.page other = w.page id := by
    unfold page
    rw [hsame]
  unfold Inside at hours htheirs
  rw [hpage] at htheirs
  rcases Document.Coherent.above_total hours htheirs with hroot | hroot
  · refine hself ?_
    unfold Inside
    rw [hpage]
    exact hroot
  · exact hother hroot

/-! ## What another component does -/

section

variable {other : ComponentId} (hne : id ≠ other) (hwithin : w.Within division other w')

include hne hwithin

namespace Within

/-- Either the document is the one that the other has, or it is as it was. -/
theorem page_cases : ((w.component other).document = (w.component id).document ∧
      w.page id = w.page other ∧ w'.page id = w'.page other) ∨ w'.page id = w.page id := by
  unfold page
  rw [hwithin.others id hne, hwithin.document]
  by_cases hsame : (w.component other).document = (w.component id).document
  · rw [hsame]
    exact .inl ⟨rfl, rfl, rfl⟩
  · exact .inr (hwithin.elsewhere _ (Ne.symm hsame))

theorem same_links : SameLinks (w.page id) (w'.page id) := by
  rcases hwithin.page_cases hne with ⟨_, hold, hnew⟩ | hsame
  · rw [hold, hnew]
    exact hwithin.links
  · rw [hsame]
    exact .refl _

theorem same_inside {node : NodeId} : w'.Inside id node ↔ w.Inside id node := by
  have hlink : (w'.page id).Link = (w.page id).Link := by
    funext c p
    exact congrArg (· = some p) ((hwithin.same_links hne).parent? c)
  unfold Inside
  rw [hlink, hwithin.others id hne]

/-- The roots lay where they lie now. -/
theorem beside (h : w'.Beside other id) : w.Beside other id := by
  unfold Beside at h
  rw [hwithin.document, hwithin.root, hwithin.others id hne] at h
  intro hsame
  rw [← hwithin.inside, ← hwithin.same_inside hne]
  exact h hsame

end Within

namespace Clear

variable (h : w.Clear other id)

include h

theorem same_content {node : NodeId} (hnode : w.Inside id node) :
    (w'.page id).content node = (w.page id).content node := by
  rcases hwithin.page_cases hne with ⟨hdocument, hold, hnew⟩ | hsame
  · rw [hold, hnew]
    exact hwithin.content node fun t ht hmem => h.nodes hdocument t ht node hmem hnode
  · rw [hsame]

variable (hw : w.Stands division id)

include hw

/-- **What is done within a component that keeps clear of another leaves the other alone.** -/
theorem leaves : w.Leaves id w' := by
  refine ⟨hwithin.others id hne, Nat.le_of_eq hwithin.components.symm,
    Nat.le_of_eq hwithin.documents.symm, Nat.le_of_eq hwithin.cells.symm, ?_, ?_, ?_, ?_, ?_⟩
  · exact fun cell hcell => hwithin.foreign cell fun hother => h.cells cell hother hcell
  · exact fun s hs => hwithin.strangers s (hw.lt_of_crew hs) fun hother => h.crew s hother hs
  · rcases hwithin.page_cases hne with ⟨_, hold, hnew⟩ | hsame
    · rw [hold, hnew]
      exact hwithin.grows
    · rw [hsame]
      exact .refl _
  · rcases hwithin.page_cases hne with ⟨_, hold, hnew⟩ | hsame
    · rw [hold, hnew]
      exact hwithin.coherent
    · rw [hsame]
      exact fun hcoherent => hcoherent
  · exact fun node _ => hwithin.same_inside hne

/-- It goes on keeping clear. -/
theorem within : w'.Clear other id := by
  have hleaves := h.leaves hne hwithin hw
  refine ⟨fun cell hother hcell => ?_, fun s hother hs => ?_, fun hsame t ht node hnode hin => ?_⟩
  · exact h.cells cell (hwithin.owns.mp hother) (hleaves.owns.mp hcell)
  · have hold := hleaves.crew_iff.mp hs
    rcases hwithin.crew s hother with hother | ⟨hnew, _⟩
    · exact h.crew s hother hold
    · exact Nat.lt_irrefl _ (Nat.lt_of_lt_of_le (hw.lt_of_crew hold) hnew)
  · rw [hleaves.component, hwithin.document] at hsame
    rw [hwithin.template] at ht
    exact h.nodes hsame t ht node hnode ((hwithin.same_inside hne).mp hin)

/-- The other goes on keeping clear of it. -/
theorem within_other (h' : w.Clear id other) : w'.Clear id other := by
  have hleaves := h.leaves hne hwithin hw
  have hclear := h.within hne hwithin hw
  refine ⟨fun cell hcell hother => hclear.cells cell hother hcell,
    fun s hs hother => hclear.crew s hother hs, fun hsame t ht node hnode hin => ?_⟩
  rw [hleaves.component, hwithin.document] at hsame
  rw [hleaves.component] at ht
  exact h'.nodes hsame t ht node hnode (hwithin.inside.mp hin)

/-- **A component that is left alone is alike to what it was alike to.** -/
theorem alike (halike : w.Alike division id ρ u) (hcrew : ∀ s s', ρ s s' → w.Crew id s) :
    w'.Alike division id ρ u := by
  have hleaves := h.leaves hne hwithin hw
  have hlinks := hwithin.same_links hne
  refine ⟨?memory, halike.events.trans hwithin.events.symm, ?component, ?watchers, ?cells, ?same,
    ?belongs, ?matched, ?links, ?content⟩
  case memory => exact halike.memory.trans (hwithin.memory id hne).symm
  case component =>
    rw [hleaves.component]
    exact halike.component
  case watchers =>
    rw [hleaves.component]
    exact halike.watchers
  case cells =>
    intro cell hcell
    have hold := hleaves.owns.mp hcell
    rw [hleaves.cell cell hold]
    exact halike.cells cell hold
  case same => exact fun s s' hs => (halike.same s s' hs).trans (hleaves.crew s (hcrew s s' hs)).symm
  case belongs =>
    intro s s' hs
    unfold World.reaction?
    rw [hleaves.crew s (hcrew s s' hs)]
    exact halike.belongs s s' hs
  case matched => exact halike.matched
  case links =>
    exact ⟨halike.links.size.trans hlinks.size.symm,
      fun n => (halike.links.parent? n).trans (hlinks.parent? n).symm,
      fun n => (halike.links.children n).trans (hlinks.children n).symm⟩
  case content =>
    intro node hnode
    have hold := (hwithin.same_inside hne).mp hnode
    exact (halike.content node hold).trans (h.same_content hne hwithin hold).symm

end Clear

end

/-- **Components that are both left alone** keep clear of each other. -/
theorem Clear.leaves_both {other : ComponentId} (h : w.Clear id other) (hw : w.Stands division id)
    (hleaves : w.Leaves id w') (hleaves' : w.Leaves other w') : w'.Clear id other := by
  refine ⟨fun cell hcell hcell' => ?_, fun s hs hs' => ?_, fun hsame t ht node hnode hin => ?_⟩
  · exact h.cells cell (hleaves.owns.mp hcell) (hleaves'.owns.mp hcell')
  · exact h.crew s (hleaves.crew_iff.mp hs) (hleaves'.crew_iff.mp hs')
  · rw [hleaves.component, hleaves'.component] at hsame
    rw [hleaves.component] at ht
    have hlt : node < (w.page other).size := by
      unfold page
      rw [← hsame]
      exact (hw.housed t ht).lt_of_mem_handles hnode
    exact h.nodes hsame t ht node hnode ((hleaves'.inside node hlt).mp hin)

/-! ## Any number of components -/

/-- **Components that stand side by side.** -/
structure Neighbours (division : Division κ σ τ) (members : List ComponentId) (w : World κ σ) : Prop where
  stands : ∀ id ∈ members, w.Stands division id
  clear : ∀ id ∈ members, ∀ other ∈ members, id ≠ other → w.Clear id other

/-- Nobody is a neighbour. -/
theorem neighbours_nil : w.Neighbours division [] :=
  ⟨fun _ hid => absurd hid List.not_mem_nil, fun _ hid => absurd hid List.not_mem_nil⟩

namespace Neighbours

variable {members : List ComponentId} (h : w.Neighbours division members)

include h

theorem withTraces (traces : Array Trace) : ({ w with traces } : World κ σ).Neighbours division members where
  stands id hid := { h.stands id hid with }
  clear id hid other hother hne := { h.clear id hid other hother hne with }

/-- **They stay where they are** when they are left alone. -/
theorem leaves (hleaves : ∀ id ∈ members, w.Leaves id w') : w'.Neighbours division members where
  stands id hid := (hleaves id hid).stands (h.stands id hid)
  clear id hid other hother hne :=
    (h.clear id hid other hother hne).leaves_both (h.stands id hid) (hleaves id hid)
      (hleaves other hother)

/-- One more that keeps clear of them, and of which they keep clear. -/
theorem cons {one : ComponentId} (hstands : w.Stands division one)
    (hclear : ∀ id ∈ members, w.Clear one id ∧ w.Clear id one) :
    w.Neighbours division (one :: members) where
  stands id hid := by
    rcases List.mem_cons.mp hid with rfl | hid
    · exact hstands
    · exact h.stands id hid
  clear id hid other hother hne := by
    rcases List.mem_cons.mp hid with rfl | hold
    · exact (hclear other (List.mem_of_ne_of_mem hne.symm hother)).1
    · rcases List.mem_cons.mp hother with rfl | hold'
      · exact (hclear id hold).2
      · exact h.clear id hold other hold' hne

/-- **They stay where they are** through what is done within one of them. -/
theorem within (hid : id ∈ members) (hwithin : w.Within division id w') :
    w'.Neighbours division members where
  stands other hother := by
    by_cases he : other = id
    · exact he ▸ hwithin.stands (h.stands id hid)
    · have hclear := h.clear id hid other hother (Ne.symm he)
      exact (hclear.leaves he hwithin (h.stands other hother)).stands (h.stands other hother)
  clear one hone other hother hne := by
    by_cases he : one = id
    · subst he
      exact (h.clear one hone other hother hne).within hne.symm hwithin (h.stands other hother)
    · have hclear := h.clear id hid one hone (Ne.symm he)
      by_cases he' : other = id
      · subst he'
        exact hclear.within_other he hwithin (h.stands one hone) (h.clear one hone other hother hne)
      · have hclear' := h.clear id hid other hother (Ne.symm he')
        exact (h.clear one hone other hother hne).leaves_both (h.stands one hone)
          (hclear.leaves he hwithin (h.stands one hone))
          (hclear'.leaves he' hwithin (h.stands other hother))

end Neighbours

end World

end BoundView
