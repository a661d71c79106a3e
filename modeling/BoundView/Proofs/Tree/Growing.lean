import BoundView.Proofs.Tree.Reachable
import BoundView.Proofs.Tree.Revising

/-!
# Documents only grow

No edit takes a node out of a document, and none makes a text of an element or an element of a text:
a node may be moved, detached, emptied and written to, but its number stays its own. Whoever has kept
the number of a node therefore finds a node of the same kind under it later on.

Main statement: `grows_perform`, every operation lets a document grow.
-/

namespace BoundView.Dom.Document

variable {κ : Type} {d e f : Document κ}

/-- **A document that has grown** from another: the nodes of the other are there still, each of the
kind that it was. -/
structure Grows (d e : Document κ) : Prop where
  size : d.size ≤ e.size
  kind : ∀ id, id < d.size → (e.content id).kind = (d.content id).kind

namespace Grows

theorem refl (d : Document κ) : Grows d d := ⟨Nat.le_refl _, fun _ _ => rfl⟩

theorem trans (h : Grows d e) (g : Grows e f) : Grows d f where
  size := Nat.le_trans h.size g.size
  kind id hid := (g.kind id (Nat.lt_of_lt_of_le hid h.size)).trans (h.kind id hid)

theorem lt_size (h : Grows d e) {id : NodeId} (hid : id < d.size) : id < e.size :=
  Nat.lt_of_lt_of_le hid h.size

theorem of_sameContent (h : SameContent d e) : Grows d e where
  size := Nat.le_of_eq h.size.symm
  kind id _ := congrArg Content.kind (h.content id)

theorem append (h : Grows d e) {p c : NodeId} (hok : e.append p c = .ok f) : Grows d f := by
  obtain ⟨_, _, _, _, _, hmoved⟩ := e.append_eq_ok hok
  rcases hmoved with ⟨_, rfl⟩ | ⟨_, rfl⟩
  · exact h.trans (.of_sameContent (e.sameContent_moveChildren _ _ _))
  · exact h.trans (.of_sameContent (e.sameContent_moveNode _ _))

theorem clear (h : Grows d e) {id : NodeId} (hok : e.clear id = .ok f) : Grows d f :=
  h.trans (.of_sameContent (e.sameContent_clear hok))

theorem push (d : Document κ) (content : Content) : Grows d (d.push content) where
  size := by
    rw [size_push]
    exact Nat.le_succ _
  kind id hid := by rw [content_push, if_neg (Nat.ne_of_lt hid)]

theorem plant (d : Document κ) (parent : NodeId) (seeds : Forest (Seed κ)) :
    Grows d (d.plant parent seeds) where
  size := by
    rw [size_plant]
    exact Nat.le_add_right _ _
  kind id hid := by rw [content_plant _ _ _ hid]

theorem pushPlaced (d : Document κ) (p : Forest.Placed (Seed κ)) : Grows d (d.pushPlaced p) where
  size := by
    rw [size_pushPlaced]
    exact Nat.le_succ _
  kind id hid := by
    unfold content
    rw [getElem?_pushPlaced, if_neg (Nat.ne_of_lt hid)]

theorem build (d : Document κ) (parsed : Markup.Parsed) : Grows d (d.build parsed) := by
  have hgraft : Grows d (d.graft parsed.nodes) := (push d .fragment).trans (plant _ _ _)
  unfold Document.build
  dsimp only
  split
  · exact hgraft.trans (push _ _)
  · exact hgraft

/-- A change of one node's content that keeps its kind. -/
theorem setContent (d : Document κ) (id : NodeId) {f : Content → Content}
    (hf : ∀ c, (f c).kind = c.kind) :
    Grows d (d.modify id fun n => { n with content := f n.content }) where
  size := Nat.le_of_eq (d.size_modify id _).symm
  kind x hx := by
    obtain ⟨n, hn⟩ := d.exists_node hx
    rw [content_modify]
    split
    · rw [hn, content_of_getElem? hn]
      exact hf n.content
    · rfl

theorem modifyElement (d : Document κ) (id : NodeId) (f : Element → Element) :
    Grows d (d.modifyElement id f) :=
  setContent d id fun c => by cases c <;> rfl

/-- An edit that depends on something that may be missing. -/
theorem of_map {α β : Type} {r : Except Fault α} {f : α → β × Document κ} {x : β × Document κ}
    (hf : ∀ a, Grows d (f a).2) (h : r.map f = .ok x) : Grows d x.2 := by
  cases r with
  | error e => cases h
  | ok a =>
    cases h
    exact hf a

theorem setData {id : NodeId} {data : String} {r : Bool × Document κ} (h : d.setData id data = .ok r) :
    Grows d r.2 := by
  refine of_map (fun n => ?_) h
  split
  · split
    · exact .refl d
    · exact setContent d id fun c => by cases c <;> rfl
  · exact .refl d

theorem setValue {id : NodeId} {value : String} {r : Bool × Document κ}
    (h : d.setValue id value = .ok r) : Grows d r.2 := by
  refine of_map (fun n => ?_) h
  split
  · split
    · exact .refl d
    · exact modifyElement d id _
  · exact .refl d

end Grows

/-- **Every operation lets a document grow.** -/
theorem grows_perform (d : Document κ) (op : Operation κ) : Grows d (d.perform op) := by
  have h := Grows.refl d
  cases op with
  | createElement tag => exact .push d _
  | createText data => exact .push d _
  | createComment data => exact .push d _
  | createFragment => exact .push d _
  | append parent child => exact orSame_of h fun e he => h.append he
  | remove parent child =>
    refine orSame_map_snd_of h fun n => ?_
    split
    · exact .of_sameContent (d.sameContent_detach child)
    · exact h
  | clear id => exact orSame_of h fun e he => h.clear he
  | setData id data => exact orSame_map_of h fun r hr => .setData hr
  | setAttribute id name value => exact orSame_map_of h fun n _ => .modifyElement d id _
  | removeAttribute id name => exact orSame_map_snd_of h fun n => .modifyElement d id _
  | setValue id value => exact orSame_map_of h fun r hr => .setValue hr
  | parseFragment source => exact .build d _
  | appendMarkup parent source => exact appendMarkup_of (.build d _) fun h he => h.append he
  | setInnerHtml id source =>
    exact setInnerHtml_of (.build d _) (fun h he => h.clear he) fun h he => h.append he
  | listen id type action =>
    have same := d.sameContent_modify id (f := fun n =>
      { n with listeners := n.listeners ++ [⟨d.nextListener, type, action⟩] }) fun _ => rfl
    exact .of_sameContent ⟨same.size, same.content⟩
  | unlisten id listener =>
    exact orSame_map_snd_of h fun n => .of_sameContent (d.sameContent_modify id fun _ => rfl)

end BoundView.Dom.Document
