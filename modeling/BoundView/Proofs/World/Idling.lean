import BoundView.Proofs.World.Adding

/-!
# What user code can do without writing

User code that writes nothing may look at the world, keep notes, make documents, cells, stores and
events of its own, subscribe handlers and let go of them, stop events, and hold components. A world is
**left idle** by it: all documents and all values that there were are as they were, events are of the
same type and about the same nodes, subscribers react in the same way, and of the components nothing
changes but how many hold them, where the dead stay dead.

An edit that is made in a world makes the same difference after idling.

Main statements: the laws of `World.Idles`; `Idles.releaseComponent`, an activity that is over.
-/

namespace BoundView

open BoundView.Dom (Document)
open BoundView.Interpolation (Lookup)

variable {κ σ : Type}

namespace World

/-- **A world in which nothing has been written meanwhile.** -/
structure Idles (w w' : World κ σ) : Prop where
  documents : w.documents.size ≤ w'.documents.size
  document : ∀ id, id < w.documents.size → w'.document id = w.document id
  events : ∀ (id : EventId) (e : Event), w.events[id]? = some e →
    ∃ e' : Event, w'.events[id]? = some e' ∧ e'.type = e.type ∧ e'.target = e.target
  cells : w.cells.size ≤ w'.cells.size
  value : ∀ cell, cell < w.cells.size → (w'.cell cell).value = (w.cell cell).value
  reactions : ∀ s reaction, w.reaction? s = some reaction → w'.reaction? s = some reaction
  components : w'.components.size = w.components.size
  component : ∀ id, ∃ holders, w'.component id = { w.component id with holders }
  held : ∀ id, (w.component id).holders ≤ (w'.component id).holders
  dead : ∀ id, (w.component id).holders = 0 → (w'.component id).holders = 0

namespace Idles

theorem refl (w : World κ σ) : w.Idles w where
  documents := Nat.le_refl _
  document _ _ := rfl
  events _ e he := ⟨e, he, rfl, rfl⟩
  cells := Nat.le_refl _
  value _ _ := rfl
  reactions _ _ h := h
  components := rfl
  component _ := ⟨_, rfl⟩
  held _ := Nat.le_refl _
  dead _ h := h

variable {w₀ w w' : World κ σ}

theorem trans (h : w₀.Idles w) (h' : w.Idles w') : w₀.Idles w' where
  documents := Nat.le_trans h.documents h'.documents
  document id hid :=
    (h'.document id (Nat.lt_of_lt_of_le hid h.documents)).trans (h.document id hid)
  events id e he := by
    obtain ⟨e₁, he₁, htype, htarget⟩ := h.events id e he
    obtain ⟨e₂, he₂, htype', htarget'⟩ := h'.events id e₁ he₁
    exact ⟨e₂, he₂, htype'.trans htype, htarget'.trans htarget⟩
  cells := Nat.le_trans h.cells h'.cells
  value cell hcell :=
    (h'.value cell (Nat.lt_of_lt_of_le hcell h.cells)).trans (h.value cell hcell)
  reactions s reaction hs := h'.reactions s reaction (h.reactions s reaction hs)
  components := h'.components.trans h.components
  component id := by
    obtain ⟨_, hcomponent⟩ := h.component id
    obtain ⟨holders, hcomponent'⟩ := h'.component id
    exact ⟨holders, by rw [hcomponent', hcomponent]⟩
  held id := Nat.le_trans (h.held id) (h'.held id)
  dead id hid := h'.dead id (h.dead id hid)

/-! ## What stays readable -/

section

variable (h : w.Idles w')

include h

theorem isAlive (id : ComponentId) : w'.isAlive id = w.isAlive id := by
  unfold World.isAlive
  have hheld := h.held id
  have hdead := h.dead id
  rw [decide_eq_decide]
  omega

theorem store (id : ComponentId) : (w'.component id).store = (w.component id).store := by
  obtain ⟨_, hcomponent⟩ := h.component id
  rw [hcomponent]

theorem template (id : ComponentId) : (w'.component id).template = (w.component id).template := by
  obtain ⟨_, hcomponent⟩ := h.component id
  rw [hcomponent]

theorem value? {store : Store} (hstore : ∀ key cell, store.cell? key = some cell → cell < w.cells.size) :
    w'.value? store = w.value? store := by
  funext key
  unfold World.value?
  cases hkey : store.cell? key with
  | none => rfl
  | some cell => exact congrArg some (h.value cell (hstore key cell hkey))

theorem lookup {store : Store} (hstore : ∀ key cell, store.cell? key = some cell → cell < w.cells.size) :
    w'.lookup store = w.lookup store := by
  unfold World.lookup
  rw [h.value? hstore]

/-! ## The same edit, before and after -/

/-- A value is stored. -/
theorem storeValue {cell : CellId} (hcell : cell < w.cells.size) (value : Value) :
    (w.storeValue cell value).Idles (w'.storeValue cell value) := by
  refine { h with cells := ?_, value := fun other hother => ?_ }
  · rw [size_cells_storeValue, size_cells_storeValue]
    exact h.cells
  · rw [size_cells_storeValue] at hother
    rw [cell_storeValue hcell, cell_storeValue (Nat.lt_of_lt_of_le hcell h.cells)]
    by_cases he : other = cell
    · rw [if_pos he, if_pos he]
    · rw [if_neg he, if_neg he]
      exact h.value other hother

/-- A document is written to. -/
theorem setDocument {id : DocumentId} (hid : id < w.documents.size) (d : Document (Action κ)) :
    (w.setDocument id d).Idles (w'.setDocument id d) := by
  refine { h with documents := ?_, document := fun other hother => ?_ }
  · show (w.documents.setIfInBounds id d).size ≤ (w'.documents.setIfInBounds id d).size
    rw [Array.size_setIfInBounds, Array.size_setIfInBounds]
    exact h.documents
  · have hother : other < w.documents.size :=
      Nat.lt_of_lt_of_eq hother Array.size_setIfInBounds
    by_cases he : other = id
    · rw [he, document_setDocument hid, document_setDocument (Nat.lt_of_lt_of_le hid h.documents)]
    · rw [document_setDocument_of_ne he, document_setDocument_of_ne he]
      exact h.document other hother

/-- The scans of a component are counted. -/
theorem countScan (id : ComponentId) :
    (w.modifyComponent id fun c => { c with scans := c.scans + 1 }).Idles
      (w'.modifyComponent id fun c => { c with scans := c.scans + 1 }) := by
  rcases Nat.lt_or_ge id w.components.size with hlt | hge
  · have hlt' : id < w'.components.size := h.components.symm ▸ hlt
    have hcomponents : ∀ other,
        ∃ holders, (w'.modifyComponent id fun c => { c with scans := c.scans + 1 }).component other =
          { (w.modifyComponent id fun c => { c with scans := c.scans + 1 }).component other with
            holders } ∧ holders = (w'.component other).holders := by
      intro other
      obtain ⟨holders, hcomponent⟩ := h.component other
      rw [component_modifyComponent hlt, component_modifyComponent hlt']
      by_cases he : other = id
      · subst he
        rw [if_pos rfl, if_pos rfl, hcomponent]
        exact ⟨holders, rfl, rfl⟩
      · rw [if_neg he, if_neg he, hcomponent]
        exact ⟨holders, rfl, rfl⟩
    have hholders : ∀ other, ((w.modifyComponent id fun c =>
        { c with scans := c.scans + 1 }).component other).holders = (w.component other).holders := by
      intro other
      rw [component_modifyComponent hlt]
      by_cases he : other = id
      · rw [if_pos he, he]
      · rw [if_neg he]
    refine { h with components := ?_, component := ?_, held := ?_, dead := ?_ }
    · exact Array.size_modify.trans (h.components.trans Array.size_modify.symm)
    · intro other
      obtain ⟨holders, hcomponent, _⟩ := hcomponents other
      exact ⟨holders, hcomponent⟩
    · intro other
      obtain ⟨holders, hcomponent, hsame⟩ := hcomponents other
      rw [hcomponent, hholders other]
      exact hsame ▸ h.held other
    · intro other hdead
      obtain ⟨holders, hcomponent, hsame⟩ := hcomponents other
      rw [hholders other] at hdead
      rw [hcomponent]
      exact hsame ▸ h.dead other hdead
  · rw [modifyComponent_of_size_le hge, modifyComponent_of_size_le (h.components.symm ▸ hge)]
    exact h

end

/-! ## Idling -/

theorem withTraces (w : World κ σ) (traces : Array Trace) : w.Idles { w with traces } :=
  { refl w with }

theorem tell (w : World κ σ) (traces : List Trace) : w.Idles (w.tell traces) := withTraces w _

theorem modifyHost (w : World κ σ) (f : σ → σ) : w.Idles (w.modifyHost f) := { refl w with }

theorem addEvent (w : World κ σ) (e : Event) : w.Idles (w.addEvent e) := by
  refine { refl w with events := fun id old hold => ⟨old, ?_, rfl, rfl⟩ }
  have hlt := (Array.getElem?_eq_some_iff.mp hold).1
  exact (Array.getElem?_push.trans (if_neg (Nat.ne_of_lt hlt))).trans hold

/-- An event may be stopped, and go on. -/
theorem modifyEvent (w : World κ σ) (id : EventId) {f : Event → Event}
    (hf : ∀ e, (f e).type = e.type ∧ (f e).target = e.target) : w.Idles (w.modifyEvent id f) := by
  refine { refl w with events := fun other e he => ?_ }
  rw [getElem?_events_modifyEvent]
  split
  · rw [he]
    exact ⟨f e, rfl, (hf e).1, (hf e).2⟩
  · exact ⟨e, he, rfl, rfl⟩

theorem pushDocument (w : World κ σ) (d : Document (Action κ)) :
    w.Idles { w with documents := w.documents.push d } := by
  refine { refl w with documents := ?_, document := fun id hid => ?_ }
  · rw [Array.size_push]
    exact Nat.le_succ _
  · unfold World.document
    dsimp only
    rw [Array.getD_eq_getD_getElem?, Array.getElem?_push, if_neg (Nat.ne_of_lt hid),
      Array.getD_eq_getD_getElem?]

theorem addCell (w : World κ σ) (value : Value) : w.Idles (w.addCell value) := by
  refine { refl w with cells := ?_, value := fun cell hcell => ?_ }
  · unfold World.addCell
    rw [Array.size_push]
    exact Nat.le_succ _
  · rw [cell_addCell, if_neg (Nat.ne_of_lt hcell)]

theorem makeStore (w : World κ σ) (data : List (String × Value)) : w.Idles (w.makeStore data).2 := by
  have hdeclared := makeStore_spec w data
  have hreaction : (w.makeStore data).2.reaction? = w.reaction? := by
    unfold World.reaction?
    rw [hdeclared.subscribers]
  have hcomponent : (w.makeStore data).2.component = w.component := by
    unfold World.component
    rw [hdeclared.components]
  have hdocument : (w.makeStore data).2.document = w.document := by
    unfold World.document
    rw [hdeclared.documents]
  refine ⟨Nat.le_of_eq (congrArg Array.size hdeclared.documents).symm, ?_, ?_,
    (founded_makeStore w data).size_le, ?_, ?_, congrArg Array.size hdeclared.components, ?_, ?_, ?_⟩
  · exact fun id _ => congrFun hdocument id
  · intro id e he
    rw [hdeclared.events]
    exact ⟨e, he, rfl, rfl⟩
  · exact fun cell hcell => congrArg Cell.value (cell_makeStore w data hcell)
  · intro s reaction hs
    rw [hreaction]
    exact hs
  · exact fun id => ⟨_, congrFun hcomponent id⟩
  · exact fun id => Nat.le_of_eq (congrArg Component.holders (congrFun hcomponent id)).symm
  · intro id hid
    rw [hcomponent]
    exact hid

theorem subscribe (w : World κ σ) (cell : CellId) (reaction : Reaction κ) :
    w.Idles (w.subscribe cell reaction) := by
  refine { refl w with cells := ?_, value := fun other _ => ?_, reactions := ?_ }
  · exact Nat.le_of_eq (size_cells_modifyCell _ _ _).symm
  · rcases Nat.lt_or_ge cell w.cells.size with hlt | hge
    · rw [cell_subscribe hlt]
      split
      · rename_i he
        rw [he]
      · rfl
    · unfold World.subscribe World.modifyCell
      dsimp only
      rw [modify_of_size_le hge]
      rfl
  · exact fun s old hs => reaction?_subscribe_of_eq_some hs cell reaction

theorem modifyHolders (w : World κ σ) (s : SubscriberId) (f : Nat → Nat) :
    w.Idles (w.modifyHolders s f) := by
  refine { refl w with reactions := fun t reaction ht => ?_ }
  rw [reaction?_modifyHolders]
  exact ht

theorem holdSubscribers (ss : List SubscriberId) (w : World κ σ) :
    w.Idles (ss.foldl World.holdSubscriber w) := by
  induction ss generalizing w with
  | nil => exact refl w
  | cons s ss ih => exact (modifyHolders w s _).trans (ih _)

/-- **A living component is held**; the dead cannot be. -/
theorem holdComponent {id : ComponentId} (halive : w.isAlive id = true) :
    w.Idles (w.holdComponent id) := by
  have hlt := lt_of_isAlive halive
  have hpos : 0 < (w.component id).holders := of_decide_eq_true halive
  have hcomponent : ∀ other, (w.holdComponent id).component other =
      if other = id then { w.component id with holders := (w.component id).holders + 1 }
      else w.component other := component_modifyComponent hlt _
  refine { refl w with components := Array.size_modify, component := ?_, held := ?_, dead := ?_ }
  · intro other
    rw [hcomponent]
    split
    · rename_i he
      exact ⟨_, by rw [he]⟩
    · exact ⟨_, rfl⟩
  · intro other
    rw [hcomponent]
    split
    · rename_i he
      rw [he]
      exact Nat.le_succ _
    · exact Nat.le_refl _
  · intro other hdead
    have hne : other ≠ id := fun he => Nat.ne_of_gt hpos (he ▸ hdead)
    rw [hcomponent, if_neg hne]
    exact hdead

/-- **An activity that is over** lets go of the component that it has held. -/
theorem releaseComponent {id : ComponentId} (halive : w.isAlive id = true)
    (h : (w.holdComponent id).Idles w') : w.Idles (w'.releaseComponent id) := by
  have hlt := lt_of_isAlive halive
  have hlt' : id < w'.components.size := by
    rw [h.components]
    exact Nat.lt_of_lt_of_eq hlt Array.size_modify.symm
  have hpos : 0 < (w.component id).holders := of_decide_eq_true halive
  have hbefore : ∀ other, (w.holdComponent id).component other =
      if other = id then { w.component id with holders := (w.component id).holders + 1 }
      else w.component other := component_modifyComponent hlt _
  have hheld : (w.component id).holders + 1 ≤ (w'.component id).holders := by
    have hheld := h.held id
    rw [hbefore, if_pos rfl] at hheld
    exact hheld
  -- what is let go of is held by somebody else still
  have hafter : w'.releaseComponent id =
      w'.modifyComponent id fun c => { c with holders := c.holders - 1 } := by
    unfold World.releaseComponent
    dsimp only
    rw [if_neg (by omega)]
  have hcomponent : ∀ other, (w'.releaseComponent id).component other =
      if other = id then { w'.component id with holders := (w'.component id).holders - 1 }
      else w'.component other := by
    rw [hafter]
    exact component_modifyComponent hlt' _
  rw [hafter] at hcomponent ⊢
  refine { h with components := ?_, component := ?_, held := ?_, dead := ?_ }
  · exact Array.size_modify.trans (h.components.trans Array.size_modify)
  · intro other
    obtain ⟨holders, hsame⟩ := h.component other
    rw [hcomponent]
    rw [hbefore] at hsame
    by_cases he : other = id
    · subst he
      rw [if_pos rfl] at hsame
      rw [if_pos rfl, hsame]
      exact ⟨_, rfl⟩
    · rw [if_neg he] at hsame
      rw [if_neg he]
      exact ⟨holders, hsame⟩
  · intro other
    rw [hcomponent]
    by_cases he : other = id
    · subst he
      rw [if_pos rfl]
      exact Nat.le_sub_of_add_le hheld
    · have hother := h.held other
      rw [hbefore, if_neg he] at hother
      rw [if_neg he]
      exact hother
  · intro other hdead
    have hne : other ≠ id := fun he => Nat.ne_of_gt hpos (he ▸ hdead)
    rw [hcomponent, if_neg hne]
    refine h.dead other ?_
    rw [hbefore, if_neg hne]
    exact hdead

end Idles

end World

end BoundView
