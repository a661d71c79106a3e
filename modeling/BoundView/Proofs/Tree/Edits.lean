import BoundView.Proofs.Tree.Coherent

/-!
# Edits keep documents coherent

Main statements: `Coherent.append`, `Coherent.remove` and `Coherent.clear`, the edits of the tree
keep coherence, and `Coherent.of_sameLinks`, so does every edit that changes no link, no kind of a
node and no set of attribute names.

Detaching a node, appending it, moving the children of a fragment and clearing a list are all one kind
of edit: some nodes leave the lists that they are in and come last in one list, or in none
(`Coherent.of_moves`). New links all lead to one node, the new parent. They close no cycle because the
check before an append has walked upward from that node and met none of the nodes that are moved
(`acyclic_of_new_links`).
-/

namespace BoundView.Dom

open Relation (TransGen ReflTransGen)

/-! ## Relations without cycles -/

section Acyclic

variable {α : Type} {R R' : α → α → Prop}

/-- A path through new links from `s ∈ S` to `p` that is not a path of old links runs in old links
from its start to some `s ∈ S`, and from `p` to its end. -/
theorem transGen_of_new_links {S : α → Prop} {p : α} (hS : ∀ s, S s → ¬ ReflTransGen R p s)
    (hnew : ∀ a b, R' a b → R a b ∨ S a ∧ b = p) {a b : α} (h : TransGen R' a b) :
    TransGen R a b ∨ (∃ s, S s ∧ ReflTransGen R a s) ∧ ReflTransGen R p b := by
  induction h with
  | single hab =>
    rcases hnew _ _ hab with hab | ⟨ha, rfl⟩
    · exact .inl (.single hab)
    · exact .inr ⟨⟨_, ha, .refl⟩, .refl⟩
  | tail _ hbc ih =>
    rcases hnew _ _ hbc with hbc | ⟨hb, rfl⟩
    · rcases ih with hab | ⟨hs, hpb⟩
      · exact .inl (hab.tail hbc)
      · exact .inr ⟨hs, hpb.tail hbc⟩
    · rcases ih with hab | ⟨_, hpb⟩
      · exact .inr ⟨⟨_, hb, hab.to_reflTransGen⟩, .refl⟩
      · exact absurd hpb (hS _ hb)

/-- New links to `p` close no cycle when no old path leads from `p` to where they start. -/
theorem acyclic_of_new_links {S : α → Prop} {p : α} (hR : ∀ a, ¬ TransGen R a a)
    (hS : ∀ s, S s → ¬ ReflTransGen R p s) (hnew : ∀ a b, R' a b → R a b ∨ S a ∧ b = p) (a : α) :
    ¬ TransGen R' a a := by
  intro h
  rcases transGen_of_new_links hS hnew h with h | ⟨⟨s, hs, has⟩, hpa⟩
  · exact hR a h
  · exact hS s hs (hpa.trans has)

end Acyclic

namespace Document

variable {κ : Type} {d e : Document κ}

namespace Coherent

/-! ## Edits that change no link -/

/-- Coherence depends on the links, the kinds of the nodes and the names of attributes. -/
theorem of_sameLinks (h : d.Coherent) (links : SameLinks d e)
    (hkind : ∀ id, (e.content id).kind = (d.content id).kind)
    (hnames : ∀ id, (e.content id).attributes.names.Nodup) : e.Coherent where
  root := by
    have hroot := hkind Document.root
    rw [h.root] at hroot
    cases hc : e.content Document.root <;> rw [hc] at hroot <;> first | rfl | cases hroot
  parent_lt {c p} hp := by
    rw [links.parent?] at hp
    rw [links.size]
    exact h.parent_lt hp
  mem_children p c := by
    rw [links.children, links.parent?]
    exact h.mem_children p c
  nodup_children p := by
    rw [links.children]
    exact h.nodup_children p
  container p hp := by
    rw [links.children] at hp
    have hcontainer := h.container p hp
    have hsame := hkind p
    revert hcontainer hsame
    cases d.content p <;> cases e.content p <;>
      simp only [Content.isContainer, Content.kind, reduceCtorEq, imp_self, IsEmpty.forall_iff,
        Nat.reduceEqDiff]
  acyclic id hid := by
    have hlink : e.Link = d.Link := by
      funext c p
      unfold Link
      rw [links.parent?]
    rw [hlink] at hid
    exact h.acyclic id hid
  fragment id hid := by
    have hsame := hkind id
    rw [hid] at hsame
    rw [links.parent?]
    refine h.fragment id ?_
    cases hc : d.content id <;> rw [hc] at hsame <;> first | rfl | cases hsame
  names := hnames

/-! ## Edits of the tree -/

/-- Coherence after an edit that keeps what nodes hold: the links alone are in question. -/
theorem of_sameContent (h : d.Coherent) (same : SameContent d e)
    (hlt : ∀ {c p}, e.parent? c = some p → p < d.size)
    (hmem : ∀ p c, c ∈ e.children p ↔ e.parent? c = some p)
    (hnodup : ∀ p, (e.children p).Nodup)
    (hcontainer : ∀ p, e.children p ≠ [] → (d.content p).isContainer = true)
    (hacyclic : ∀ id, ¬ TransGen e.Link id id)
    (hfragment : ∀ id, d.content id = .fragment → e.parent? id = none) : e.Coherent where
  root := by
    rw [same.content]
    exact h.root
  parent_lt hp := by
    rw [same.size]
    exact hlt hp
  mem_children := hmem
  nodup_children := hnodup
  container p hp := by
    rw [same.content]
    exact hcontainer p hp
  acyclic := hacyclic
  fragment id hid := by
    rw [same.content] at hid
    exact hfragment id hid
  names id := by
    rw [same.content]
    exact h.names id

/-- Dropping links closes no cycle. -/
theorem acyclic_of_fewer (h : d.Coherent) (hfewer : ∀ c p, e.parent? c = some p → d.parent? c = some p)
    (id : NodeId) : ¬ TransGen e.Link id id :=
  fun hid => h.acyclic id (TransGen.mono hfewer _ _ hid)

/-! ## Nodes that are moved -/

/-- **An edit that moves nodes** to the end of another node's list, or nowhere: they leave the lists
that they are in, and nothing else changes. -/
structure Moves (d e : Document κ) (moved : List NodeId) (target : Option NodeId) : Prop where
  same : SameContent d e
  parent? : ∀ x, e.parent? x = if x ∈ moved then target else d.parent? x
  children : ∀ q, e.children q =
    (d.children q).filter (fun x => decide (x ∉ moved)) ++ if target = some q then moved else []

/-- **A node to which others may move**: it may have children, it does not lie under any of them, and
none of them is a fragment. -/
structure Admits (d : Document κ) (p : NodeId) (moved : List NodeId) : Prop where
  lt : p < d.size
  container : (d.content p).isContainer = true
  cycle : ∀ c ∈ moved, ¬ ReflTransGen d.Link p c
  fragment : ∀ c ∈ moved, d.content c ≠ .fragment

theorem Moves.mem_children (h : d.Coherent) {moved : List NodeId} {target : Option NodeId}
    (hmoves : Moves d e moved target) (q x : NodeId) :
    x ∈ e.children q ↔ e.parent? x = some q := by
  rw [hmoves.children, hmoves.parent?, List.mem_append, List.mem_filter, decide_eq_true_iff,
    h.mem_children]
  by_cases hx : x ∈ moved
  · rw [if_pos hx, or_iff_right fun hold => hold.2 hx]
    split
    · rename_i ht
      exact ⟨fun _ => ht, fun _ => hx⟩
    · rename_i ht
      exact ⟨fun hm => absurd hm List.not_mem_nil, fun he => absurd he ht⟩
  · have hnew : x ∉ (if target = some q then moved else []) := by
      split
      · exact hx
      · exact List.not_mem_nil
    rw [if_neg hx, or_iff_left hnew, and_iff_left hx]

theorem Moves.nodup_children (h : d.Coherent) {moved : List NodeId} {target : Option NodeId}
    (hmoves : Moves d e moved target) (hnodup : moved.Nodup) (q : NodeId) :
    (e.children q).Nodup := by
  rw [hmoves.children]
  have hold : ((d.children q).filter fun x => decide (x ∉ moved)).Nodup :=
    (h.nodup_children q).filter _
  split
  · refine List.nodup_append.mpr ⟨hold, hnodup, ?_⟩
    rintro a ha b hb rfl
    exact of_decide_eq_true (List.mem_filter.mp ha).2 hb
  · rw [List.append_nil]
    exact hold

/-- New links lead to the target only, and from the target no path leads to where they start. -/
theorem Moves.acyclic (h : d.Coherent) {moved : List NodeId} {target : Option NodeId}
    (hmoves : Moves d e moved target) (hadmits : ∀ p, target = some p → Admits d p moved)
    (id : NodeId) : ¬ TransGen e.Link id id := by
  cases target with
  | none =>
    refine h.acyclic_of_fewer (fun x p hp => ?_) id
    rw [hmoves.parent?] at hp
    split at hp
    · cases hp
    · exact hp
  | some p =>
    refine acyclic_of_new_links (S := (· ∈ moved)) h.acyclic (hadmits p rfl).cycle ?_ id
    intro a b hab
    unfold Link at hab
    rw [hmoves.parent?] at hab
    split at hab
    · rename_i ha
      exact .inr ⟨ha, (Option.some.inj hab).symm⟩
    · exact .inl hab

/-- **Moving nodes keeps coherence**, if the target admits them. -/
theorem of_moves (h : d.Coherent) {moved : List NodeId} {target : Option NodeId}
    (hmoves : Moves d e moved target) (hnodup : moved.Nodup)
    (hadmits : ∀ p, target = some p → Admits d p moved) : e.Coherent := by
  refine h.of_sameContent hmoves.same ?_ (hmoves.mem_children h) (hmoves.nodup_children h hnodup) ?_
    (hmoves.acyclic h hadmits) ?_
  · intro x q hq
    rw [hmoves.parent?] at hq
    split at hq
    · exact (hadmits q hq).lt
    · exact h.parent_lt hq
  · intro q hq
    by_cases ht : target = some q
    · exact (hadmits q ht).container
    · refine h.container q fun hnil => hq ?_
      rw [hmoves.children, hnil, if_neg ht]
      rfl
  · intro id hid
    rw [hmoves.parent?, h.fragment id hid]
    split
    · rename_i hm
      refine Option.eq_none_iff_forall_ne_some.mpr fun p ht => ?_
      exact (hadmits p ht).fragment id hm hid
    · rfl

/-! ## The edits of the tree -/

/-- A node leaves the list of its parent. -/
theorem filter_not_mem_singleton (h : d.Coherent) (c q : NodeId) :
    (d.children q).filter (fun x => decide (x ∉ [c])) =
      if d.parent? c = some q then (d.children q).filter (· != c) else d.children q := by
  have hsame : ((fun x => decide (x ∉ [c])) : NodeId → Bool) = (· != c) := by
    funext x
    simp only [List.mem_singleton, decide_not, bne, beq_eq_decide]
  rw [hsame]
  split
  · rfl
  · rename_i hq
    refine List.filter_eq_self.mpr fun x hx => bne_iff_ne.mpr ?_
    rintro rfl
    exact hq ((h.mem_children q x).mp hx)

/-- The children of a node leave its list, which is the only one that they are in. -/
theorem filter_not_mem_children (h : d.Coherent) (f q : NodeId) :
    (d.children q).filter (fun x => decide (x ∉ d.children f)) =
      if q = f then [] else d.children q := by
  split
  · rename_i hq
    rw [hq]
    exact List.filter_eq_nil_iff.mpr fun x hx hnot => of_decide_eq_true hnot hx
  · rename_i hq
    refine List.filter_eq_self.mpr fun x hx => decide_eq_true fun hf => hq ?_
    rw [h.mem_children] at hx hf
    exact Option.some.inj (hx.symm.trans hf)

/-- **Taking a node away from its parent keeps coherence.** -/
theorem detach (h : d.Coherent) (c : NodeId) : (d.detach c).Coherent := by
  have hmoves : Moves d (d.detach c) [c] none := by
    refine ⟨d.sameContent_detach c, fun x => ?_, fun q => ?_⟩
    · simp only [parent?_detach, List.mem_singleton]
    · rw [children_detach, h.filter_not_mem_singleton, if_neg (Option.some_ne_none q).symm,
        List.append_nil]
  exact h.of_moves hmoves (List.nodup_singleton c) fun p hp => by cases hp

/-- **Moving a node keeps coherence**, if it does not come under itself and is no fragment. -/
theorem moveNode (h : d.Coherent) {p c : NodeId} (hc : c < d.size) (hadmits : Admits d p [c]) :
    (d.moveNode p c).Coherent := by
  have hmoves : Moves d (d.moveNode p c) [c] (some p) := by
    refine ⟨d.sameContent_moveNode p c, fun x => ?_, fun q => ?_⟩
    · simp only [d.parent?_moveNode p hc, List.mem_singleton]
    · rw [d.children_moveNode hadmits.lt, h.filter_not_mem_singleton]
      simp only [Option.some.injEq, eq_comm]
  exact h.of_moves hmoves (List.nodup_singleton c) fun q hq => Option.some.inj hq ▸ hadmits

/-- **Moving a fragment's children keeps coherence**, if the fragment is not above its target. -/
theorem moveChildren (h : d.Coherent) {p f : NodeId} (hadmits : Admits d p (d.children f)) :
    (d.moveChildren p f (d.children f)).Coherent := by
  have hmoves : Moves d (d.moveChildren p f (d.children f)) (d.children f) (some p) := by
    refine ⟨d.sameContent_moveChildren p f _, ?_, fun q => ?_⟩
    · exact d.parent?_moveChildren p f fun c hc => h.child_lt hc
    · rw [d.children_moveChildren hadmits.lt, h.filter_not_mem_children]
      simp only [Option.some.injEq, eq_comm]
  exact h.of_moves hmoves (h.nodup_children f) fun q hq => Option.some.inj hq ▸ hadmits

/-- **Appending keeps coherence.** -/
theorem append (h : d.Coherent) {p c : NodeId} (hok : d.append p c = .ok e) : e.Coherent := by
  obtain ⟨hp, hc, hcontainer, hne, hanc, hcase⟩ := d.append_eq_ok hok
  have hcycle := h.not_reflTransGen hne hanc
  rcases hcase with ⟨_, rfl⟩ | ⟨hother, rfl⟩
  · -- the moved nodes were under the fragment, so a path to one of them leads on to the fragment
    refine h.moveChildren ⟨hp, hcontainer, fun s hs hps => ?_, fun s hs hfragment => ?_⟩
    · exact hcycle (hps.tail ((h.mem_children c s).mp hs))
    · have hs' := (h.mem_children c s).mp hs
      rw [h.fragment s hfragment] at hs'
      cases hs'
  · refine h.moveNode hc ⟨hp, hcontainer, fun s hs => ?_, fun s hs => ?_⟩
    · obtain rfl := List.mem_singleton.mp hs
      exact hcycle
    · obtain rfl := List.mem_singleton.mp hs
      exact hother

/-- **Removing a child keeps coherence.** -/
theorem remove (h : d.Coherent) {p c : NodeId} {was : Bool} (hok : d.remove p c = .ok (was, e)) :
    e.Coherent := by
  unfold Document.remove at hok
  cases hn : d.node c with
  | error f => rw [hn] at hok; cases hok
  | ok n =>
    rw [hn] at hok
    simp only [Except.map] at hok
    split at hok
    · cases hok
      exact h.detach c
    · cases hok
      exact h

/-- **Detaching every child keeps coherence.** -/
theorem clear (h : d.Coherent) {id : NodeId} (hok : d.clear id = .ok e) : e.Coherent := by
  have hmoves : Moves d e (d.children id) none := by
    refine ⟨d.sameContent_clear hok, ?_, fun q => ?_⟩
    · exact d.parent?_clear hok fun c hc => h.child_lt hc
    · rw [d.children_clear hok, h.filter_not_mem_children, if_neg (Option.some_ne_none q).symm,
        List.append_nil]
  exact h.of_moves hmoves (h.nodup_children id) fun p hp => by cases hp

end Coherent

end Document

end BoundView.Dom
