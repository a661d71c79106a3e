import BoundView.Proofs.Rendering.Filtered
import BoundView.Proofs.Rendering.Housing
import BoundView.Proofs.Tree.Parsing

/-!
# What lies above a node after rendering

Rendering a template in the place of a node's children puts the new nodes below the node and cuts the
former children off. For all other nodes that were there nothing is above them that was not above them
before, and a node whose way up does not pass the root keeps all of it.

Main statements: `above_of_mount`, `above_mount`, `above_root_mount`, `below_mount`.
-/

namespace BoundView.Template

open BoundView.Dom (Document NodeId)
open Relation (ReflTransGen TransGen)

variable {κ : Type} {d : Document κ} {context : RenderContext κ} {root : NodeId} {t : Template}
  (hd : d.Coherent) (hroot : root < d.size) (hfault : (t.mount context d root).fault = none)

include hd hroot hfault

/-- A node that was there has its parent still, unless it was a child of the root. -/
theorem parent?_mount {x : NodeId} (hx : x < d.size) :
    (t.mount context d root).document.parent? x =
      if d.parent? x = some root then none else d.parent? x := by
  obtain ⟨n, hn⟩ := d.exists_node hx
  have hslot := getElem?_mount_kept hroot hfault hx
  rw [hn] at hslot
  rw [Document.parent?_of_getElem? hslot, Document.parent?_of_getElem? hn]
  simp only [hd.mem_children root x, Document.parent?_of_getElem? hn]

/-- **Nothing new is above a node that was there.** -/
theorem above_of_mount {x a : NodeId} (hx : x < d.size)
    (h : ReflTransGen (t.mount context d root).document.Link x a) : ReflTransGen d.Link x a := by
  induction h using ReflTransGen.head_induction_on with
  | refl => exact .refl
  | @head c p hlink _ ih =>
    have hparent : d.parent? c = some p := by
      have hlink := (parent?_mount hd hroot hfault hx).symm.trans hlink
      split at hlink
      · cases hlink
      · exact hlink
    exact .head hparent (ih (hd.parent_lt hparent))

/-- **A way up that does not pass the root** is there still. -/
theorem above_mount {x a : NodeId} (ha : ¬ ReflTransGen d.Link root a) (h : ReflTransGen d.Link x a) :
    ReflTransGen (t.mount context d root).document.Link x a := by
  induction h using ReflTransGen.head_induction_on with
  | refl => exact .refl
  | @head c p hlink hrest ih =>
    have hlink : d.parent? c = some p := hlink
    refine .head ?_ ih
    have hlt := d.lt_size_of_parent? hlink
    show (t.mount context d root).document.parent? c = some p
    rw [parent?_mount hd hroot hfault hlt, if_neg]
    · exact hlink
    · intro hpassing
      rw [hlink] at hpassing
      exact ha (Option.some.inj hpassing ▸ hrest)

/-- **The way up from the root** is there still. -/
theorem above_root_mount {x a : NodeId} (hx : ReflTransGen d.Link root x)
    (h : ReflTransGen d.Link x a) : ReflTransGen (t.mount context d root).document.Link x a := by
  induction h using ReflTransGen.head_induction_on with
  | refl => exact .refl
  | @head c p hlink _ ih =>
    have hlink : d.parent? c = some p := hlink
    refine .head ?_ (ih (hx.tail hlink))
    show (t.mount context d root).document.parent? c = some p
    rw [parent?_mount hd hroot hfault (d.lt_size_of_parent? hlink), if_neg]
    · exact hlink
    · intro hpassing
      exact hd.acyclic root (TransGen.tail' hx hpassing)

omit hd in
/-- **Rendered nodes are below the root.** -/
theorem below_mount (hbare : t.Bare) (hcoherent : (t.mount context d root).document.Coherent)
    {node : NodeId} (hnode : node ∈ (t.mount context d root).template.handles) :
    TransGen (t.mount context d root).document.Link node root := by
  rw [← hcoherent.mem_descendants_iff, hcoherent.descendants_eq_preorder,
    (subtrees_mount hroot hfault hcoherent).1, List.mem_range'_1, size_seeds]
  rw [template_mount, mem_handles_place hbare] at hnode
  exact hnode

end BoundView.Template
