import BoundView.Proofs.Tree.Frame
import Mathlib.Data.List.Chain
import Mathlib.Data.Fintype.Basic
import Mathlib.Logic.Relation

/-!
# Coherent documents

A document is **coherent** when its two records of the tree agree and make a forest: a node is
listed as a child exactly where its parent link leads, and once; only containers have children;
no node lies above itself; fragments stand at the top; every link leads to a node; and the
attributes of an element have different names.

Main statements: `Coherent.climb_add_size`, the bounded walk upward comes to its end before its
bound, and `Coherent.mem_ancestors_iff`, it meets exactly the nodes above a node. The check against
cycles is therefore right in a coherent document, which is what keeps the next document coherent.
-/

namespace BoundView.Dom

open Relation (TransGen ReflTransGen)

namespace Document

variable {κ : Type}

/-- One step upward: the parent of `c` is `p`. -/
def Link (d : Document κ) (c p : NodeId) : Prop := d.parent? c = some p

/-- **A coherent document.** -/
structure Coherent (d : Document κ) : Prop where
  /-- The first node is the document node. -/
  root : d.content Document.root = .document
  /-- A parent link leads to a node. -/
  parent_lt : ∀ {c p}, d.parent? c = some p → p < d.size
  /-- The children of a node are the nodes whose parent it is. -/
  mem_children : ∀ p c, c ∈ d.children p ↔ d.parent? c = some p
  /-- No child is listed twice. -/
  nodup_children : ∀ p, (d.children p).Nodup
  /-- Texts and comments have no children. -/
  container : ∀ p, d.children p ≠ [] → (d.content p).isContainer = true
  /-- No node lies above itself. -/
  acyclic : ∀ id, ¬ TransGen d.Link id id
  /-- A fragment has no parent. -/
  fragment : ∀ id, d.content id = .fragment → d.parent? id = none
  /-- The attributes of an element have different names. -/
  names : ∀ id, (d.content id).attributes.names.Nodup

variable {d e : Document κ}

namespace Coherent

theorem size_pos (h : d.Coherent) : 0 < d.size := by
  rcases Nat.eq_zero_or_pos d.size with hz | hpos
  · have hroot := h.root
    unfold content at hroot
    rw [d.getElem?_eq_none_of_size_le (hz.trans_le (Nat.zero_le _))] at hroot
    cases hroot
  · exact hpos

/-- Every listed child is a node. -/
theorem child_lt (h : d.Coherent) {p c : NodeId} (hc : c ∈ d.children p) : c < d.size :=
  d.lt_size_of_parent? ((h.mem_children p c).mp hc)

/-- A node is listed by its parent once, and by no other node. -/
theorem count_children (h : d.Coherent) (p c : NodeId) :
    (d.children p).count c = if d.parent? c = some p then 1 else 0 := by
  split
  · rename_i hp
    exact List.count_eq_one_of_mem (h.nodup_children p) ((h.mem_children p c).mpr hp)
  · rename_i hp
    exact List.count_eq_zero_of_not_mem fun hm => hp ((h.mem_children p c).mp hm)

end Coherent

/-! ## The walk upward -/

/-- What is above a node is what is above its parent, and the parent. -/
theorem transGen_link_iff {c a : NodeId} :
    TransGen d.Link c a ↔ ∃ p, d.parent? c = some p ∧ (a = p ∨ TransGen d.Link p a) := by
  constructor
  · intro h
    cases h using TransGen.head_induction_on with
    | single hca => exact ⟨a, hca, .inl rfl⟩
    | head hcb hba => exact ⟨_, hcb, .inr hba⟩
  · rintro ⟨p, hp, rfl | hpa⟩
    · exact .single hp
    · exact .head hp hpa

/-- A node and those that a walk upward meets, each with the parent behind it. -/
theorem isChain_climb (fuel : Nat) (id : NodeId) :
    (id :: d.climb fuel (d.parent? id)).IsChain d.Link := by
  induction fuel generalizing id with
  | zero => exact .singleton id
  | succ fuel ih =>
    cases hp : d.parent? id with
    | none => exact .singleton id
    | some p => exact .cons_cons hp (ih p)

/-- What a walk upward meets lies above its start. -/
theorem transGen_of_mem_climb {fuel : Nat} {id a : NodeId}
    (h : a ∈ d.climb fuel (d.parent? id)) : TransGen d.Link id a :=
  (List.pairwise_cons.mp
    (List.isChain_iff_pairwise.mp ((isChain_climb fuel id).imp fun _ _ => TransGen.single))).1 a h

/-- What holds of a node, and of the parent of every node that it holds of, holds of all that lies above
the node. -/
theorem of_mem_ancestors {P : NodeId → Prop} (hlink : ∀ x p, P x → d.parent? x = some p → P p)
    {id a : NodeId} (hid : P id) (ha : a ∈ d.ancestors id) : P a := by
  have habove : TransGen d.Link id a := transGen_of_mem_climb ha
  clear ha
  induction habove using TransGen.trans_induction_on with
  | single hp => exact hlink _ _ hid hp
  | trans _ _ ih ih' => exact ih' (ih hid)

/-- A walk upward that had fuel left was at its end. -/
theorem climb_add {fuel : Nat} {start : Option NodeId} (h : (d.climb fuel start).length < fuel)
    (extra : Nat) : d.climb (fuel + extra) start = d.climb fuel start := by
  induction fuel generalizing start with
  | zero => exact absurd h (Nat.not_lt_zero _)
  | succ fuel ih =>
    rw [Nat.add_right_comm]
    cases start with
    | none => rfl
    | some id =>
      have hlt : (d.climb fuel (d.parent? id)).length < fuel := Nat.lt_of_succ_lt_succ h
      show id :: d.climb (fuel + extra) (d.parent? id) = id :: d.climb fuel (d.parent? id)
      rw [ih hlt]

namespace Coherent

/-- A node and those above it are different nodes. -/
theorem nodup_climb (h : d.Coherent) (fuel : Nat) (id : NodeId) :
    (id :: d.climb fuel (d.parent? id)).Nodup := by
  have hpairs := List.isChain_iff_pairwise.mp
    ((d.isChain_climb fuel id).imp fun _ _ => TransGen.single)
  apply hpairs.imp
  intro a b hab heq
  subst heq
  exact h.acyclic a hab

/-- A walk upward meets fewer nodes than the document has. -/
theorem length_climb_lt (h : d.Coherent) (fuel : Nat) (id : NodeId) :
    (d.climb fuel (d.parent? id)).length < d.size := by
  rcases Nat.lt_or_ge id d.size with hid | hid
  · have hall : ∀ a ∈ id :: d.climb fuel (d.parent? id), a < d.size := by
      intro a ha
      rcases List.mem_cons.mp ha with rfl | ha
      · exact hid
      · obtain ⟨b, _, hba⟩ := TransGen.tail'_iff.mp (transGen_of_mem_climb ha)
        exact h.parent_lt hba
    have hsub : (id :: d.climb fuel (d.parent? id)) ⊆ List.range d.size :=
      fun a ha => List.mem_range.mpr (hall a ha)
    have hlen := ((h.nodup_climb fuel id).subperm hsub).length_le
    rw [List.length_range, List.length_cons] at hlen
    exact hlen
  · have hnone : d.parent? id = none := by
      unfold Document.parent?
      rw [d.getElem?_eq_none_of_size_le hid]
      rfl
    rw [hnone]
    cases fuel <;> exact h.size_pos

/-- **The walk upward comes to its end**: more fuel than the number of nodes changes nothing. -/
theorem climb_add_size (h : d.Coherent) (id : NodeId) (extra : Nat) :
    d.climb (d.size + extra) (d.parent? id) = d.ancestors id :=
  climb_add (h.length_climb_lt d.size id) extra

/-- The nodes above a node are its parent and the nodes above that. -/
theorem ancestors_eq (h : d.Coherent) (id : NodeId) :
    d.ancestors id = match d.parent? id with
      | none => []
      | some p => p :: d.ancestors p := by
  rw [← h.climb_add_size id 1]
  cases d.parent? id <;> rfl

theorem ancestors_of_link (h : d.Coherent) {id p : NodeId} (hp : d.Link id p) :
    d.ancestors id = p :: d.ancestors p := by
  rw [h.ancestors_eq id, show d.parent? id = some p from hp]

/-- **The walk upward meets exactly the nodes above a node.** -/
theorem mem_ancestors_iff (h : d.Coherent) {id a : NodeId} :
    a ∈ d.ancestors id ↔ TransGen d.Link id a := by
  refine ⟨transGen_of_mem_climb, fun ha => ?_⟩
  induction ha using TransGen.head_induction_on with
  | single hp =>
    rw [h.ancestors_of_link hp]
    exact List.mem_cons_self
  | head hp _ ih =>
    rw [h.ancestors_of_link hp]
    exact List.mem_cons_of_mem _ ih

/-- What is above a node is there. -/
theorem ancestor_lt (h : d.Coherent) {id a : NodeId} (ha : a ∈ d.ancestors id) : a < d.size := by
  obtain ⟨b, _, hlink⟩ := TransGen.tail'_iff.mp (h.mem_ancestors_iff.mp ha)
  exact h.parent_lt hlink

/-- A node that is neither another nor above it is on no path upward from it. -/
theorem not_reflTransGen (h : d.Coherent) {p c : NodeId} (hne : p ≠ c) (hc : c ∉ d.ancestors p) :
    ¬ ReflTransGen d.Link p c := by
  intro hpc
  rcases Relation.reflTransGen_iff_eq_or_transGen.mp hpc with heq | hpc
  · exact hne heq.symm
  · exact hc (h.mem_ancestors_iff.mpr hpc)

end Coherent

end Document

end BoundView.Dom
