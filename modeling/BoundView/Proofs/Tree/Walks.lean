import BoundView.Proofs.Tree.Coherent

/-!
# Walks over coherent documents come to their end

Each walk over a document carries a bound, the number of its nodes. In a coherent document the bound
is never what stops it: with more fuel each walk gives the same (`Coherent.climb_add_size`,
`Coherent.drain_add_size`, `Coherent.grow_add_size`), so the unbounded walks end.

Downward the measure is the number of nodes above a node: it grows by one with every step down and
stays below the number of nodes.

Main statement: `Coherent.descendants_eq_preorder`, the walk with pending nodes lists the nodes of
the trees in preorder.
-/

namespace BoundView.Dom.Document

open Relation (TransGen ReflTransGen)

variable {κ : Type} {d : Document κ}

/-! ## Levels -/

/-- The number of nodes above a node. -/
def level (d : Document κ) (id : NodeId) : Nat := (d.ancestors id).length

namespace Coherent

theorem level_lt (h : d.Coherent) (id : NodeId) : d.level id < d.size :=
  h.length_climb_lt d.size id

/-- A child is one level deeper than its parent. -/
theorem level_child (h : d.Coherent) {p c : NodeId} (hc : c ∈ d.children p) :
    d.level c = d.level p + 1 := by
  unfold level
  rw [h.ancestors_of_link ((h.mem_children p c).mp hc)]
  rfl

end Coherent

/-! ## Down, as a forest -/

/-- The trees at pending nodes, the first in front of the others. -/
theorem grow_succ_cons (d : Document κ) (depth : Nat) (id : NodeId) (ids : List NodeId) :
    d.grow (depth + 1) (id :: ids) =
      .node id (d.grow depth (d.children id)) (d.grow (depth + 1) ids) := rfl

namespace Coherent

/-- Two depths that both exceed the levels left below some nodes give the same trees. -/
theorem grow_congr (h : d.Coherent) (m n : Nat) (ids : List NodeId)
    (hm : ∀ id ∈ ids, d.size ≤ m + d.level id) (hn : ∀ id ∈ ids, d.size ≤ n + d.level id) :
    d.grow m ids = d.grow n ids := by
  induction m generalizing n ids with
  | zero =>
    cases ids with
    | nil => cases n <;> rfl
    | cons id ids =>
      have hlevel := h.level_lt id
      have := hm id List.mem_cons_self
      omega
  | succ m ih =>
    cases n with
    | zero =>
      cases ids with
      | nil => rfl
      | cons id ids =>
        have hlevel := h.level_lt id
        have := hn id List.mem_cons_self
        omega
    | succ n =>
      induction ids with
      | nil => rfl
      | cons id ids ihs =>
        have hchildren : d.grow m (d.children id) = d.grow n (d.children id) := by
          refine ih n _ (fun c hc => ?_) fun c hc => ?_
          · have hlevel := h.level_child hc
            have := hm id List.mem_cons_self
            omega
          · have hlevel := h.level_child hc
            have := hn id List.mem_cons_self
            omega
        rw [grow_succ_cons, grow_succ_cons, hchildren,
          ihs (fun c hc => hm c (List.mem_cons_of_mem _ hc))
            fun c hc => hn c (List.mem_cons_of_mem _ hc)]

/-- **The walk downward comes to its end**: more levels than the document has nodes change
nothing. -/
theorem grow_add_size (h : d.Coherent) (ids : List NodeId) (extra : Nat) :
    d.grow (d.size + extra) ids = d.subtrees ids :=
  h.grow_congr _ _ ids (fun id _ => by omega) fun id _ => by omega

/-- A tree is its node in front of the trees at its children. -/
theorem subtrees_cons (h : d.Coherent) (id : NodeId) (ids : List NodeId) :
    d.subtrees (id :: ids) = .node id (d.subtrees (d.children id)) (d.subtrees ids) := by
  have hsize : d.size = d.size - 1 + 1 := by
    have := h.size_pos
    omega
  have hchildren : d.grow (d.size - 1) (d.children id) = d.subtrees (d.children id) := by
    refine h.grow_congr _ _ _ (fun c hc => ?_) fun c _ => Nat.le_add_right _ _
    have := h.level_child hc
    omega
  unfold subtrees at hchildren ⊢
  rw [hsize, grow_succ_cons, ← hsize, hchildren]

theorem subtrees_nil (d : Document κ) : d.subtrees [] = .nil := by
  unfold subtrees
  cases d.size <;> rfl

theorem subtrees_append (h : d.Coherent) (ids ids' : List NodeId) :
    d.subtrees (ids ++ ids') = d.subtrees ids ++ d.subtrees ids' := by
  induction ids with
  | nil =>
    rw [subtrees_nil]
    rfl
  | cons id ids ih => rw [List.cons_append, h.subtrees_cons, h.subtrees_cons, ih, Forest.node_append]

end Coherent

namespace Coherent

/-- **Induction downward**: what holds of no nodes, and of pending nodes when it holds of the
children of the first and of the others, holds of all pending nodes. -/
theorem children_induction (h : d.Coherent) {motive : List NodeId → Prop} (nil : motive [])
    (cons : ∀ id ids, motive (d.children id) → motive ids → motive (id :: ids))
    (ids : List NodeId) : motive ids := by
  have bounded : ∀ m ids, (∀ id ∈ ids, d.size ≤ m + d.level id) → motive ids := by
    intro m
    induction m with
    | zero =>
      intro ids hids
      cases ids with
      | nil => exact nil
      | cons id ids =>
        have hlevel := h.level_lt id
        have := hids id List.mem_cons_self
        omega
    | succ m ih =>
      intro ids hids
      induction ids with
      | nil => exact nil
      | cons id ids ihs =>
        refine cons id ids (ih _ fun c hc => ?_) (ihs fun c hc => hids c (List.mem_cons_of_mem _ hc))
        have hlevel := h.level_child hc
        have := hids id List.mem_cons_self
        omega
  exact bounded d.size ids fun id _ => Nat.le_add_right _ _

/-- The trees at some nodes hold these nodes and those below them. -/
theorem mem_subtrees_iff (h : d.Coherent) {ids : List NodeId} {x : NodeId} :
    x ∈ (d.subtrees ids).preorder ↔ ∃ id ∈ ids, ReflTransGen d.Link x id := by
  induction ids using h.children_induction with
  | nil =>
    rw [subtrees_nil]
    exact ⟨fun hx => absurd hx List.not_mem_nil, fun ⟨_, hid, _⟩ => absurd hid List.not_mem_nil⟩
  | cons id ids ihc ihr =>
    rw [h.subtrees_cons]
    show x ∈ id :: (_ ++ _) ↔ _
    rw [List.mem_cons, List.mem_append, ihc, ihr]
    constructor
    · rintro (rfl | ⟨c, hc, hxc⟩ | ⟨r, hr, hxr⟩)
      · exact ⟨x, List.mem_cons_self, .refl⟩
      · exact ⟨id, List.mem_cons_self, hxc.tail ((h.mem_children id c).mp hc)⟩
      · exact ⟨r, List.mem_cons_of_mem _ hr, hxr⟩
    · rintro ⟨r, hr, hxr⟩
      rcases List.mem_cons.mp hr with rfl | hr
      · rcases ReflTransGen.cases_tail hxr with rfl | ⟨c, hxc, hc⟩
        · exact .inl rfl
        · exact .inr (.inl ⟨c, (h.mem_children r c).mpr hc, hxc⟩)
      · exact .inr (.inr ⟨r, hr, hxr⟩)

/-- Of two nodes above one node, one lies above the other. -/
theorem above_total {x a b : NodeId} (ha : ReflTransGen d.Link x a)
    (hb : ReflTransGen d.Link x b) : ReflTransGen d.Link a b ∨ ReflTransGen d.Link b a := by
  refine ReflTransGen.total_of_right_unique ?_ ha hb
  intro c p q hp hq
  exact Option.some.inj (hp.symm.trans hq)

/-- No child lies below another. -/
theorem pairwise_children (h : d.Coherent) (p : NodeId) :
    (d.children p).Pairwise fun a b => ¬ ReflTransGen d.Link a b ∧ ¬ ReflTransGen d.Link b a := by
  have apart : ∀ a ∈ d.children p, ∀ b ∈ d.children p, a ≠ b → ¬ ReflTransGen d.Link a b := by
    intro a ha b hb hne hab
    have hlinka := (h.mem_children p a).mp ha
    have hlinkb := (h.mem_children p b).mp hb
    rcases ReflTransGen.cases_head hab with rfl | ⟨q, haq, hqb⟩
    · exact hne rfl
    · have hq : q = p := Option.some.inj (haq.symm.trans hlinka)
      rw [hq] at hqb
      exact h.acyclic p (TransGen.tail' hqb hlinkb)
  refine (h.nodup_children p).imp_of_mem ?_
  intro a b ha hb hne
  exact ⟨apart a ha b hb hne, apart b hb a ha fun he => hne he.symm⟩

/-- Trees at nodes that do not lie below one another have no node twice. -/
theorem nodup_subtrees (h : d.Coherent) {ids : List NodeId}
    (hids : ids.Pairwise fun a b => ¬ ReflTransGen d.Link a b ∧ ¬ ReflTransGen d.Link b a) :
    (d.subtrees ids).preorder.Nodup := by
  induction ids using h.children_induction with
  | nil =>
    rw [subtrees_nil]
    exact List.nodup_nil
  | cons id ids ihc ihr =>
    obtain ⟨hid, hrest⟩ := List.pairwise_cons.mp hids
    rw [h.subtrees_cons]
    refine List.nodup_cons.mpr ⟨fun hmem => ?_, List.nodup_append.mpr
      ⟨ihc (h.pairwise_children id), ihr hrest, fun x hx y hy heq => ?_⟩⟩
    · rcases List.mem_append.mp hmem with hmem | hmem
      · obtain ⟨c, hc, hidc⟩ := h.mem_subtrees_iff.mp hmem
        exact h.acyclic id (TransGen.tail' hidc ((h.mem_children id c).mp hc))
      · obtain ⟨r, hr, hidr⟩ := h.mem_subtrees_iff.mp hmem
        exact (hid r hr).1 hidr
    · subst heq
      obtain ⟨c, hc, hxc⟩ := h.mem_subtrees_iff.mp hx
      obtain ⟨r, hr, hxr⟩ := h.mem_subtrees_iff.mp hy
      have hxid : ReflTransGen d.Link x id := hxc.tail ((h.mem_children id c).mp hc)
      rcases above_total hxid hxr with hab | hba
      · exact (hid r hr).1 hab
      · exact (hid r hr).2 hba

/-- The trees below a node have fewer nodes than the document. -/
theorem length_subtrees_le (h : d.Coherent) (id : NodeId) :
    (d.subtrees (d.children id)).preorder.length ≤ d.size := by
  have hsub : (d.subtrees (d.children id)).preorder ⊆ List.range d.size := by
    intro x hx
    obtain ⟨c, hc, hxc⟩ := h.mem_subtrees_iff.mp hx
    apply List.mem_range.mpr
    rcases ReflTransGen.cases_head hxc with rfl | ⟨q, hq, _⟩
    · exact h.child_lt hc
    · exact d.lt_size_of_parent? hq
  have hle := ((h.nodup_subtrees (h.pairwise_children id)).subperm hsub).length_le
  rwa [List.length_range] at hle

/-! ## Down, with pending nodes -/

/-- A walk with pending nodes lists the trees at these nodes in preorder, as far as its fuel
reaches. -/
theorem drain_eq_take (h : d.Coherent) (fuel : Nat) (ids : List NodeId) :
    d.drain fuel ids = (d.subtrees ids).preorder.take fuel := by
  induction fuel generalizing ids with
  | zero => rfl
  | succ fuel ih =>
    cases ids with
    | nil =>
      rw [subtrees_nil]
      rfl
    | cons id pending =>
      show id :: d.drain fuel (d.children id ++ pending) = _
      rw [ih, h.subtrees_append, h.subtrees_cons, Forest.preorder_append]
      rfl

/-- **The walk with pending nodes comes to its end**: more fuel than the number of nodes changes
nothing. -/
theorem drain_add_size (h : d.Coherent) (id : NodeId) (extra : Nat) :
    d.drain (d.size + extra) (d.children id) = d.descendants id := by
  have hle := h.length_subtrees_le id
  unfold descendants
  rw [h.drain_eq_take, h.drain_eq_take, List.take_of_length_le hle,
    List.take_of_length_le (Nat.le_add_right_of_le hle)]

/-- **The walk with pending nodes is preorder.** -/
theorem descendants_eq_preorder (h : d.Coherent) (id : NodeId) :
    d.descendants id = (d.subtrees (d.children id)).preorder := by
  unfold descendants
  rw [h.drain_eq_take, List.take_of_length_le (h.length_subtrees_le id)]

end Coherent

end BoundView.Dom.Document
