import BoundView.Proofs.Tree.Standing

/-!
# Edits of what nodes hold, and what nodes hear

Assigning the characters of a text or the live value of an element **revises** one node: what it
holds changes, and neither links nor listeners do, at this node or at any other.

Only `listen` and `unlisten` change the listeners of a node that is there. Every edit of links and of
contents keeps them, so that a listener given to a node when it was made stays there while the node
is moved, filled and emptied.

Main statements: `setData_spec`, `setValue_spec`, `sameListeners_moveChildren`, `sameListeners_clear`.
-/

namespace BoundView.Dom.Document

variable {κ : Type} {d e f : Document κ}

/-- The listeners of a node; none if it is not there. -/
def listeners (d : Document κ) (id : NodeId) : List (Listener κ) :=
  (d.nodes[id]?).elim [] Node.listeners

/-- Two documents whose nodes hear the same. -/
def SameListeners (d e : Document κ) : Prop := ∀ id, e.listeners id = d.listeners id

theorem SameListeners.trans (h : SameListeners d e) (g : SameListeners e f) : SameListeners d f :=
  fun id => (g id).trans (h id)

theorem listeners_of_getElem? {id : NodeId} {n : Node κ} (h : d.nodes[id]? = some n) :
    d.listeners id = n.listeners := by
  unfold listeners
  rw [h]
  rfl

theorem SameListeners.listenersFor (h : SameListeners d e) (id : NodeId) (type : String) :
    e.listenersFor id type = d.listenersFor id type := by
  have hid := h id
  unfold listeners at hid
  unfold Document.listenersFor
  rw [hid]

/-- A change of what a node holds and of its links keeps all listeners. -/
theorem sameListeners_modify (d : Document κ) (id : NodeId) {f : Node κ → Node κ}
    (h : ∀ n, (f n).listeners = n.listeners) : SameListeners d (d.modify id f) := by
  intro x
  unfold listeners
  rw [getElem?_modify]
  split
  · cases d.nodes[x]? with
    | none => rfl
    | some n => exact h n
  · rfl

theorem sameListeners_adopt (d : Document κ) (p : Option NodeId) (ids : List NodeId) :
    SameListeners d (d.adopt p ids) := by
  unfold adopt
  induction ids generalizing d with
  | nil =>
    intro x
    rfl
  | cons c ids ih =>
    have hfirst : SameListeners d (d.modify c fun n => { n with parent := p }) :=
      d.sameListeners_modify c fun _ => rfl
    exact hfirst.trans (ih _)

theorem sameListeners_moveChildren (d : Document κ) (p c : NodeId) (moved : List NodeId) :
    SameListeners d (d.moveChildren p c moved) := by
  have hempty : SameListeners d (d.modify c fun n => { n with children := [] }) :=
    d.sameListeners_modify c fun _ => rfl
  unfold moveChildren
  exact (hempty.trans (sameListeners_adopt _ _ _)).trans (sameListeners_modify _ p fun _ => rfl)

theorem sameListeners_clear {id : NodeId} (h : d.clear id = .ok e) : SameListeners d e := by
  obtain ⟨_, rfl⟩ := d.clear_eq_ok h
  have hempty : SameListeners d (d.modify id fun n => { n with children := [] }) :=
    d.sameListeners_modify id fun _ => rfl
  exact hempty.trans (sameListeners_adopt _ _ _)

/-! ## Revising one node -/

/-- **One node revised**, and nothing else changed. -/
structure Revises (d : Document κ) (id : NodeId) (revise : Content → Content) (e : Document κ) :
    Prop where
  links : SameLinks d e
  listeners : SameListeners d e
  content : ∀ x, e.content x = if x = id then revise (d.content x) else d.content x

theorem revises_modify {id : NodeId} (h : id < d.size) (revise : Content → Content) :
    d.Revises id revise (d.modify id fun n => { n with content := revise n.content }) := by
  obtain ⟨n, hn⟩ := d.exists_node h
  refine ⟨d.sameLinks_modify id (fun _ => rfl) fun _ => rfl, d.sameListeners_modify id fun _ => rfl,
    fun x => ?_⟩
  rw [content_modify]
  by_cases hx : x = id
  · rw [if_pos hx, if_pos hx.symm, hx, hn, content_of_getElem? hn]
    rfl
  · rw [if_neg hx, if_neg fun he => hx he.symm]

/-- A node that already holds what it has to stays as it is. -/
theorem revises_self {id : NodeId} {revise : Content → Content}
    (h : revise (d.content id) = d.content id) : d.Revises id revise d := by
  refine ⟨.refl d, fun _ => rfl, fun x => ?_⟩
  split
  · rename_i hx
    rw [hx, h]
  · rfl

/-- **Assigning characters** revises the node. -/
theorem setData_spec {id : NodeId} (h : id < d.size) (data : String) :
    ∃ changed e, d.setData id data = .ok (changed, e) ∧ d.Revises id (Content.withData data) e := by
  obtain ⟨n, hn⟩ := d.exists_node h
  have hcontent := content_of_getElem? hn
  unfold setData
  rw [(d.node_eq_ok_iff).mpr hn]
  unfold Except.map
  dsimp only
  cases hdata : n.content.data? with
  | none =>
    refine ⟨false, d, rfl, revises_self ?_⟩
    rw [hcontent]
    cases hc : n.content <;> rw [hc] at hdata <;> first | rfl | cases hdata
  | some old =>
    dsimp only
    by_cases hold : old = data
    · rw [if_pos hold]
      refine ⟨false, d, rfl, revises_self ?_⟩
      rw [hcontent]
      cases hc : n.content <;> rw [hc] at hdata <;> cases hdata <;> rw [hold] <;> rfl
    · rw [if_neg hold]
      exact ⟨true, _, rfl, revises_modify h _⟩

/-- **Assigning a live value** revises the node. -/
theorem setValue_spec {id : NodeId} (h : id < d.size) (value : String) :
    ∃ changed e, d.setValue id value = .ok (changed, e) ∧
      d.Revises id (Content.mapElement fun e => { e with value := some value }) e := by
  obtain ⟨n, hn⟩ := d.exists_node h
  have hcontent := content_of_getElem? hn
  unfold setValue
  rw [(d.node_eq_ok_iff).mpr hn]
  unfold Except.map
  dsimp only
  cases helement : n.content.element? with
  | none =>
    refine ⟨false, d, rfl, revises_self ?_⟩
    rw [hcontent]
    cases hc : n.content <;> rw [hc] at helement <;> first | rfl | cases helement
  | some e =>
    dsimp only
    by_cases hvalue : e.value = some value
    · rw [if_pos hvalue]
      refine ⟨false, d, rfl, revises_self ?_⟩
      rw [hcontent]
      cases hc : n.content <;> rw [hc] at helement <;> cases helement
      show Content.element { e with value := some value } = .element e
      rw [← hvalue]
    · rw [if_neg hvalue]
      exact ⟨true, _, rfl, revises_modify h _⟩

end BoundView.Dom.Document
