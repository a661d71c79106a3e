import BoundView.Proofs.Tree.Growing

/-!
# What nodes hold and hear stays with them

The characters of a text and the live value of an element change when they are assigned, and in no other
way; a listener stays until it is taken away. A node may be moved, detached and emptied, its attributes
may be set, and others may be made beside it: it holds what it held, and hears what it heard.

Main statement: `retains_perform`, every operation retains what nodes hold and hear, but for those that
assign it or take it away.
-/

namespace BoundView.Dom

/-- **What can be assigned to a node**: the characters of a text or a comment, the live value of an
element. -/
def Content.held? : Content → Option String
  | .text data | .comment data => some data
  | .element e => e.value
  | .document | .fragment => none

/-- **An operation that assigns nothing** that a node holds, and takes no listener away. -/
def Operation.Retains {κ : Type} : Operation κ → Prop
  | .setData _ _ | .setValue _ _ | .unlisten _ _ => False
  | _ => True

namespace Document

variable {κ : Type} {d e f : Document κ}

/-- **A document that retains what another had**: each node of the other is there still, holds what it
held, and hears at least what it heard. -/
structure Retains (d e : Document κ) : Prop where
  size : d.size ≤ e.size
  held : ∀ id, id < d.size → (e.content id).held? = (d.content id).held?
  listeners : ∀ id, ∀ l ∈ d.listeners id, l ∈ e.listeners id

theorem lt_size_of_mem_listeners {id : NodeId} {l : Listener κ} (h : l ∈ d.listeners id) :
    id < d.size := by
  refine Nat.lt_of_not_le fun hge => ?_
  unfold listeners at h
  rw [show d.nodes[id]? = none from Array.getElem?_eq_none hge] at h
  cases h

/-- What a node heard for a type of event it hears still. -/
theorem Retains.mem_listenersFor (h : Retains d e) {id : NodeId} {type : String} {l : Listener κ}
    (hl : l ∈ d.listenersFor id type) : l ∈ e.listenersFor id type := by
  obtain ⟨hmem, htype⟩ := List.mem_filter.mp hl
  exact List.mem_filter.mpr ⟨h.listeners id l hmem, htype⟩

/-! ## Listeners of nodes that are moved -/

theorem sameListeners_detach (d : Document κ) (c : NodeId) : SameListeners d (d.detach c) := by
  unfold detach
  split
  · exact fun _ => rfl
  · have horphaned : SameListeners d (d.modify c fun n => { n with parent := none }) :=
      d.sameListeners_modify c fun _ => rfl
    exact horphaned.trans (sameListeners_modify _ _ fun _ => rfl)

theorem sameListeners_moveNode (d : Document κ) (p c : NodeId) : SameListeners d (d.moveNode p c) := by
  have hparent : SameListeners (d.detach c)
      ((d.detach c).modify c fun n => { n with parent := some p }) :=
    sameListeners_modify _ c fun _ => rfl
  have hchildren : SameListeners ((d.detach c).modify c fun n => { n with parent := some p })
      (d.moveNode p c) :=
    sameListeners_modify _ p fun _ => rfl
  exact ((sameListeners_detach d c).trans hparent).trans hchildren

namespace Retains

theorem refl (d : Document κ) : Retains d d := ⟨Nat.le_refl _, fun _ _ => rfl, fun _ _ hl => hl⟩

theorem trans (h : Retains d e) (g : Retains e f) : Retains d f where
  size := Nat.le_trans h.size g.size
  held id hid := (g.held id (Nat.lt_of_lt_of_le hid h.size)).trans (h.held id hid)
  listeners id l hl := g.listeners id l (h.listeners id l hl)

theorem of_same (h : SameContent d e) (g : SameListeners d e) : Retains d e where
  size := Nat.le_of_eq h.size.symm
  held id _ := congrArg Content.held? (h.content id)
  listeners id _ hl := (g id).symm ▸ hl

/-- A document in which all nodes that were there are as they were. -/
theorem of_kept (hsize : d.size ≤ e.size) (h : ∀ id, id < d.size → e.nodes[id]? = d.nodes[id]?) :
    Retains d e where
  size := hsize
  held id hid := by
    unfold content
    rw [h id hid]
  listeners id l hl := by
    have hid := lt_size_of_mem_listeners hl
    unfold Document.listeners at hl ⊢
    rw [h id hid]
    exact hl

theorem push (d : Document κ) (content : Content) : Retains d (d.push content) := by
  refine of_kept ?_ fun id hid => ?_
  · rw [size_push]
    exact Nat.le_succ _
  · rw [getElem?_push, if_neg (Nat.ne_of_lt hid)]

/-- Planting changes the children of the node that is planted under, and nothing else. -/
theorem plant (d : Document κ) (parent : NodeId) (seeds : Forest (Seed κ)) :
    Retains d (d.plant parent seeds) where
  size := by
    rw [size_plant]
    exact Nat.le_add_right _ _
  held id hid := by rw [content_plant _ _ _ hid]
  listeners id l hl := by
    have hid := lt_size_of_mem_listeners hl
    unfold Document.listeners at hl ⊢
    rw [getElem?_plant d parent seeds hid]
    split
    · cases hn : d.nodes[id]? with
      | none =>
        rw [hn] at hl
        exact hl
      | some n =>
        rw [hn] at hl
        exact hl
    · exact hl

theorem pushPlaced (d : Document κ) (p : Forest.Placed (Seed κ)) : Retains d (d.pushPlaced p) := by
  refine of_kept ?_ fun id hid => ?_
  · rw [size_pushPlaced]
    exact Nat.le_succ _
  · rw [getElem?_pushPlaced, if_neg (Nat.ne_of_lt hid)]

theorem build (d : Document κ) (parsed : Markup.Parsed) : Retains d (d.build parsed) := by
  have hgraft : Retains d (d.graft parsed.nodes) := (push d .fragment).trans (plant _ _ _)
  unfold Document.build
  dsimp only
  split
  · exact hgraft.trans (push _ _)
  · exact hgraft

theorem append (h : Retains d e) {p c : NodeId} (hok : e.append p c = .ok f) : Retains d f := by
  obtain ⟨_, _, _, _, _, hmoved⟩ := e.append_eq_ok hok
  rcases hmoved with ⟨_, rfl⟩ | ⟨_, rfl⟩
  · exact h.trans (of_same (e.sameContent_moveChildren _ _ _) (e.sameListeners_moveChildren _ _ _))
  · exact h.trans (of_same (e.sameContent_moveNode _ _) (e.sameListeners_moveNode _ _))

theorem clear (h : Retains d e) {id : NodeId} (hok : e.clear id = .ok f) : Retains d f :=
  h.trans (of_same (e.sameContent_clear hok) (sameListeners_clear hok))

/-- A change of attributes. -/
theorem modifyElement (d : Document κ) (id : NodeId) {g : Element → Element}
    (hg : ∀ e, (g e).value = e.value) : Retains d (d.modifyElement id g) where
  size := Nat.le_of_eq (d.size_modify id _).symm
  held x hx := by
    obtain ⟨n, hn⟩ := d.exists_node hx
    unfold Document.modifyElement
    rw [content_modify]
    split
    · rw [hn, content_of_getElem? hn]
      show (n.content.mapElement g).held? = _
      cases n.content with
      | element e => exact hg e
      | _ => rfl
    · rfl
  listeners x _ hl := by
    have hsame : SameListeners d (d.modifyElement id g) := d.sameListeners_modify id fun _ => rfl
    rw [hsame]
    exact hl

/-- One more listener. -/
theorem listen (d : Document κ) (id : NodeId) (type : String) (action : κ) :
    Retains d (d.listen id type action).2 where
  size := Nat.le_of_eq (d.size_modify id _).symm
  held x _ := by
    have same := d.sameContent_modify id (f := fun n =>
      { n with listeners := n.listeners ++ [⟨d.nextListener, type, action⟩] }) fun _ => rfl
    exact congrArg Content.held? (same.content x)
  listeners x l hl := by
    obtain ⟨n, hn⟩ := d.exists_node (lt_size_of_mem_listeners hl)
    show l ∈ ((d.modify id _).nodes[x]?).elim [] Node.listeners
    rw [getElem?_modify, hn]
    rw [listeners_of_getElem? hn] at hl
    split
    · exact List.mem_append_left _ hl
    · exact hl

end Retains

/-- **Every other operation retains what nodes hold and hear.** -/
theorem retains_perform (d : Document κ) {op : Operation κ} (hop : op.Retains) :
    Retains d (d.perform op) := by
  have h := Retains.refl d
  cases op with
  | createElement tag => exact .push d _
  | createText data => exact .push d _
  | createComment data => exact .push d _
  | createFragment => exact .push d _
  | append parent child => exact orSame_of h fun e he => h.append he
  | remove parent child =>
    refine orSame_map_snd_of h fun n => ?_
    split
    · exact .of_same (d.sameContent_detach child) (d.sameListeners_detach child)
    · exact h
  | clear id => exact orSame_of h fun e he => h.clear he
  | setData id data => exact hop.elim
  | setAttribute id name value => exact orSame_map_of h fun n _ => .modifyElement d id fun _ => rfl
  | removeAttribute id name => exact orSame_map_snd_of h fun n => .modifyElement d id fun _ => rfl
  | setValue id value => exact hop.elim
  | parseFragment source => exact .build d _
  | appendMarkup parent source => exact appendMarkup_of (.build d _) fun h he => h.append he
  | setInnerHtml id source =>
    exact setInnerHtml_of (.build d _) (fun h he => h.clear he) fun h he => h.append he
  | listen id type action => exact .listen d id type action
  | unlisten id listener => exact hop.elim

end Document

end BoundView.Dom
