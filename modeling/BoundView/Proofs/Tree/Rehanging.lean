import BoundView.Proofs.Tree.Grafting
import BoundView.Proofs.Tree.Parsing

/-!
# Nodes that get another place

Appending and removing **rehang** nodes: some nodes leave the lists that they are in and come last, in
their order, in the list of another node, or in none. The law is about whole slots, so it says what
becomes of every node: its parent and its list, and that nothing else in it changes. The lists are cut
by a filter, so the nodes that stay in a list keep their order.

An append is refused when a number is of no node, when the new parent is a text or a comment, and when
the node would come under itself. It is refused before anything is changed.

Main statement: `edits_rehang`, for every document that operations reach and any two numbers.
-/

namespace BoundView.Dom

/-- Texts and comments are what can not have children. -/
theorem Content.isContainer_eq_false_iff {c : Content} :
    c.isContainer = false ↔ ∃ data, c = .text data ∨ c = .comment data := by
  cases c <;> simp [Content.isContainer]

namespace Document

open Relation (TransGen)

variable {κ : Type} {d e : Document κ}

/-- **The moved nodes hang in the list of the target**, if there is one, behind what was in it; they
hang in no other list, and nothing else has changed in any slot. -/
structure Rehangs (d : Document κ) (moved : List NodeId) (target : Option NodeId) (e : Document κ) :
    Prop where
  slot : ∀ x : Nat, e.nodes[x]? = (d.nodes[x]?).map fun n =>
    { n with
      parent := if x ∈ moved then target else n.parent
      children :=
        n.children.filter (fun c => decide (c ∉ moved)) ++ if target = some x then moved else [] }
  nextListener : e.nextListener = d.nextListener

namespace Rehangs

variable {moved : List NodeId} {target : Option NodeId}

theorem children (h : Rehangs d moved target e) {x : NodeId} (hx : x < d.size) :
    e.children x = (d.children x).filter (fun c => decide (c ∉ moved)) ++
      if target = some x then moved else [] := by
  obtain ⟨n, hn⟩ := d.exists_node hx
  have hslot := h.slot x
  rw [hn] at hslot
  rw [children_of_getElem? hslot, children_of_getElem? hn]

theorem parent? (h : Rehangs d moved target e) {x : NodeId} (hx : x < d.size) :
    e.parent? x = if x ∈ moved then target else d.parent? x := by
  obtain ⟨n, hn⟩ := d.exists_node hx
  have hslot := h.slot x
  rw [hn] at hslot
  rw [parent?_of_getElem? hslot, parent?_of_getElem? hn]

/-- **A slot is as it was** when the node is not moved, had no moved node in its list and is not the
target. -/
theorem slot_eq (h : Rehangs d moved target e) {x : Nat} (hx : x ∉ moved)
    (hlist : ∀ c ∈ moved, c ∉ d.children x) (htarget : target ≠ some x) :
    e.nodes[x]? = d.nodes[x]? := by
  rw [h.slot x]
  cases hn : d.nodes[x]? with
  | none => rfl
  | some n =>
    rw [children_of_getElem? hn] at hlist
    have hkept : n.children.filter (fun c => decide (c ∉ moved)) = n.children := by
      apply List.filter_eq_self.mpr
      intro c hc
      exact decide_eq_true fun hm => hlist c hm hc
    rw [Option.map_some, hkept, if_neg hx, if_neg htarget, List.append_nil]

end Rehangs

/-! ## Slots after a node was moved -/

/-- Taking a node away from its parent cuts one link, in both its records. -/
theorem getElem?_detach (d : Document κ) (c x : Nat) :
    (d.detach c).nodes[x]? = (d.nodes[x]?).map fun n =>
      { n with
        parent := if x = c then none else n.parent
        children := if d.parent? c = some x then n.children.filter (· != c) else n.children } := by
  unfold detach
  split
  · rename_i hnone
    cases hn : d.nodes[x]? with
    | none => rfl
    | some n =>
      obtain ⟨content, parent, children, listeners⟩ := n
      by_cases hx : x = c
      · rw [← hx, parent?_of_getElem? hn] at hnone
        obtain rfl : parent = none := hnone
        rw [parent?_of_getElem? (hx ▸ hn)]
        simp [hx]
      · simp [hx, hnone]
  · rename_i p hp
    rw [getElem?_modify, getElem?_modify, hp]
    cases d.nodes[x]? with
    | none => simp
    | some n =>
      simp only [Option.some.injEq, eq_comm (a := x)]
      by_cases hc : c = x <;> by_cases hpx : p = x <;> simp [hc, hpx]

/-- Giving nodes a parent uses up no identifier of a listener. -/
theorem nextListener_adopt (d : Document κ) (p : Option NodeId) (ids : List NodeId) :
    (d.adopt p ids).nextListener = d.nextListener := by
  unfold adopt
  induction ids generalizing d with
  | nil => rfl
  | cons c ids ih => exact ih _

namespace Coherent

/-- **Taking a node away from its parent** rehangs it nowhere. -/
theorem rehangs_detach (h : d.Coherent) (c : NodeId) : Rehangs d [c] none (d.detach c) := by
  constructor
  · intro x
    rw [getElem?_detach]
    cases hn : d.nodes[x]? with
    | none => rfl
    | some n =>
      have hfilter := h.filter_not_mem_singleton c x
      rw [children_of_getElem? hn] at hfilter
      rw [Option.map_some, Option.map_some, hfilter]
      simp
  · unfold Document.detach
    split <;> rfl

/-- **Moving a node** rehangs it. -/
theorem rehangs_moveNode (h : d.Coherent) (p c : NodeId) :
    Rehangs d [c] (some p) (d.moveNode p c) := by
  have hdetached := h.rehangs_detach c
  constructor
  · intro x
    unfold Document.moveNode
    rw [getElem?_modify, getElem?_modify, hdetached.slot x]
    cases d.nodes[x]? with
    | none => simp
    | some n => by_cases hc : c = x <;> by_cases hp : p = x <;> simp [hc, hp, eq_comm]
  · exact hdetached.nextListener

/-- **Moving the children of a fragment** rehangs them. -/
theorem rehangs_moveChildren (h : d.Coherent) (p f : NodeId) :
    Rehangs d (d.children f) (some p) (d.moveChildren p f (d.children f)) := by
  constructor
  · intro x
    rw [getElem?_moveChildren]
    cases hn : d.nodes[x]? with
    | none => rfl
    | some n =>
      have hfilter := h.filter_not_mem_children f x
      rw [children_of_getElem? hn] at hfilter
      rw [Option.map_some, Option.map_some, hfilter]
      simp [eq_comm (a := x)]
  · exact nextListener_adopt _ _ _

end Coherent

/-! ## When an append is refused -/

/-- **An append is met** when both nodes are there, the new parent may have children, and the node does
not come under itself. -/
theorem Coherent.append_ok_iff (h : d.Coherent) {p c : NodeId} :
    (∃ e, d.append p c = .ok e) ↔
      p < d.size ∧ c < d.size ∧ (d.content p).isContainer = true ∧ p ≠ c ∧ ¬ TransGen d.Link p c := by
  constructor
  · rintro ⟨e, he⟩
    obtain ⟨hp, hc, hcontainer, hne, habove, _⟩ := d.append_eq_ok he
    exact ⟨hp, hc, hcontainer, hne, mt h.mem_ancestors_iff.mpr habove⟩
  · rintro ⟨hp, hc, hcontainer, hne, habove⟩
    have hanc : c ∉ d.ancestors p := mt h.mem_ancestors_iff.mp habove
    by_cases hfragment : d.content c = .fragment
    · exact ⟨_, d.append_fragment hp hc hcontainer hfragment hne hanc⟩
    · exact ⟨_, d.append_node hp hc hcontainer hfragment hne hanc⟩

/-- **An append is refused** in all other cases. -/
theorem Coherent.append_error_iff (h : d.Coherent) {p c : NodeId} :
    (∃ f, d.append p c = .error f) ↔
      d.size ≤ p ∨ d.size ≤ c ∨ (∃ data, d.content p = .text data ∨ d.content p = .comment data) ∨
        c = p ∨ TransGen d.Link p c := by
  have hcases : (∃ f, d.append p c = .error f) ↔ ¬ ∃ e, d.append p c = .ok e := by
    cases d.append p c <;> simp
  rw [hcases, h.append_ok_iff, ← Content.isContainer_eq_false_iff, eq_comm (a := c)]
  simp only [not_and_or, Nat.not_lt, Bool.not_eq_true, not_not, ne_eq]

/-! ## Appending and removing -/

/-- **What appending does**, whatever the two numbers are of. -/
structure Appends (d : Document κ) (p c : NodeId) : Prop where
  refused : (∃ f, d.append p c = .error f) ↔
    d.size ≤ p ∨ d.size ≤ c ∨ (∃ data, d.content p = .text data ∨ d.content p = .comment data) ∨
      c = p ∨ TransGen d.Link p c
  /-- A refused append has changed nothing. -/
  unchanged : (∃ f, d.append p c = .error f) → d.perform (.append p c) = d
  /-- A node goes from the list that it is in, which may be the same, to the end of its new parent's. -/
  node : ∀ e, d.append p c = .ok e → d.content c ≠ .fragment →
    Rehangs d [c] (some p) e ∧ e.parent? c = some p ∧
      e.children p = (d.children p).filter (· != c) ++ [c] ∧
      (∀ q, d.parent? c = some q → q ≠ p → e.children q = (d.children q).filter (· != c)) ∧
        ∀ x, x ≠ c → x ≠ p → d.parent? c ≠ some x → e.nodes[x]? = d.nodes[x]?
  /-- Of a fragment all children go, in their order, and it stays behind empty. -/
  fragment : ∀ e, d.append p c = .ok e → d.content c = .fragment →
    Rehangs d (d.children c) (some p) e ∧ (∀ x ∈ d.children c, e.parent? x = some p) ∧
      e.children p = d.children p ++ d.children c ∧ e.children c = [] ∧
        ∀ x, x ≠ c → x ≠ p → x ∉ d.children c → e.nodes[x]? = d.nodes[x]?
  /-- No node is lost or doubled: each is listed once by its parent, and by no other node. -/
  counted : ∀ e, d.append p c = .ok e → ∀ q x,
    (e.children q).count x = if e.parent? x = some q then 1 else 0

/-- **What removing does**, whatever the two numbers are of. -/
structure Removes (d : Document κ) (p c : NodeId) : Prop where
  refused : d.size ≤ c → d.remove p c = .error (.outOfBounds d.size c) ∧ d.perform (.remove p c) = d
  /-- The answer tells whether the node was a child. -/
  answered : c < d.size → ∃ e, d.remove p c = .ok (decide (d.parent? c = some p), e)
  unchanged : ∀ e, d.remove p c = .ok (false, e) → e = d
  /-- The child leaves the list, and has no parent. -/
  removed : ∀ e, d.remove p c = .ok (true, e) →
    Rehangs d [c] none e ∧ e.parent? c = none ∧ e.children p = (d.children p).filter (· != c) ∧
      ∀ x, x ≠ c → x ≠ p → e.nodes[x]? = d.nodes[x]?

/-- **What a removal that is met has done.** -/
theorem remove_eq_ok {p c : NodeId} {was : Bool} (h : d.remove p c = .ok (was, e)) :
    was = false ∧ e = d ∨ was = true ∧ d.parent? c = some p ∧ e = d.detach c := by
  unfold Document.remove at h
  cases hn : d.node c with
  | error f =>
    rw [hn] at h
    cases h
  | ok n =>
    rw [hn] at h
    simp only [Except.map] at h
    rw [parent?_of_getElem? (d.node_eq_ok_iff.mp hn)]
    split at h
    · rename_i hp
      cases h
      exact .inr ⟨rfl, hp, rfl⟩
    · cases h
      exact .inl ⟨rfl, rfl⟩

theorem filter_singleton (c : NodeId) (ids : List NodeId) :
    ids.filter (fun x => decide (x ∉ [c])) = ids.filter (· != c) := by
  apply List.filter_congr
  intro x _
  simp [bne, beq_eq_decide]

namespace Rehangs

variable {c : NodeId} {target : Option NodeId}

/-- One node leaves the list that it is in. -/
theorem children_singleton (h : Rehangs d [c] target e) {x : NodeId} (hx : x < d.size) :
    e.children x = (d.children x).filter (· != c) ++ if target = some x then [c] else [] := by
  rw [h.children hx, filter_singleton]

/-- Where one node is rehung, three slots change: its own, its former parent's and the target's. -/
theorem slot_eq_singleton (h : Rehangs d [c] target e) (hd : d.Coherent) {x : Nat} (hx : x ≠ c)
    (hparent : d.parent? c ≠ some x) (htarget : target ≠ some x) : e.nodes[x]? = d.nodes[x]? := by
  apply h.slot_eq
  · simpa using hx
  · intro y hy
    rw [List.mem_singleton.mp hy, hd.mem_children]
    exact hparent
  · exact htarget

end Rehangs

namespace Coherent

variable (h : d.Coherent)
include h

/-- A node that is no fragment is appended. -/
theorem node_appended {p c : NodeId} (he : d.append p c = .ok e) (hother : d.content c ≠ .fragment) :
    Rehangs d [c] (some p) e ∧ e.parent? c = some p ∧
      e.children p = (d.children p).filter (· != c) ++ [c] ∧
      (∀ q, d.parent? c = some q → q ≠ p → e.children q = (d.children q).filter (· != c)) ∧
        ∀ x, x ≠ c → x ≠ p → d.parent? c ≠ some x → e.nodes[x]? = d.nodes[x]? := by
  obtain ⟨hp, hc, _, _, _, ⟨hfragment, _⟩ | ⟨_, rfl⟩⟩ := d.append_eq_ok he
  · exact absurd hfragment hother
  · have hrehangs := h.rehangs_moveNode p c
    refine ⟨hrehangs, ?_, ?_, ?_, ?_⟩
    · simp [hrehangs.parent? hc]
    · simp [hrehangs.children_singleton hp]
    · intro q hq hne
      simp [hrehangs.children_singleton (h.parent_lt hq), hne.symm]
    · intro x hxc hxp hparent
      apply hrehangs.slot_eq_singleton h hxc hparent
      simpa using hxp.symm

/-- A fragment is appended. -/
theorem fragment_appended {p c : NodeId} (he : d.append p c = .ok e)
    (hfragment : d.content c = .fragment) :
    Rehangs d (d.children c) (some p) e ∧ (∀ x ∈ d.children c, e.parent? x = some p) ∧
      e.children p = d.children p ++ d.children c ∧ e.children c = [] ∧
        ∀ x, x ≠ c → x ≠ p → x ∉ d.children c → e.nodes[x]? = d.nodes[x]? := by
  obtain ⟨hp, hc, _, hne, _, ⟨_, rfl⟩ | ⟨hother, _⟩⟩ := d.append_eq_ok he
  · have hrehangs := h.rehangs_moveChildren p c
    refine ⟨hrehangs, ?_, ?_, ?_, ?_⟩
    · intro x hx
      rw [hrehangs.parent? (h.child_lt hx), if_pos hx]
    · rw [hrehangs.children hp, h.filter_not_mem_children, if_neg hne, if_pos rfl]
    · rw [hrehangs.children hc, h.filter_not_mem_children, if_pos rfl, List.nil_append, if_neg]
      simpa using hne
    · intro x hxc hxp hx
      apply hrehangs.slot_eq hx
      · intro y hy hmem
        rw [h.mem_children] at hy hmem
        exact hxc (Option.some.inj (hmem.symm.trans hy))
      · simpa using hxp.symm
  · exact absurd hfragment hother

theorem appends (p c : NodeId) : Appends d p c where
  refused := h.append_error_iff
  unchanged := by
    rintro ⟨f, hf⟩
    simp [Document.perform, hf, orSame]
  node _ := h.node_appended
  fragment _ := h.fragment_appended
  counted e he q x := (h.append he).count_children q x

/-- A child is removed. -/
theorem child_removed {p c : NodeId} (hp : d.parent? c = some p) :
    Rehangs d [c] none (d.detach c) ∧ (d.detach c).parent? c = none ∧
      (d.detach c).children p = (d.children p).filter (· != c) ∧
        ∀ x, x ≠ c → x ≠ p → (d.detach c).nodes[x]? = d.nodes[x]? := by
  have hrehangs := h.rehangs_detach c
  refine ⟨hrehangs, ?_, ?_, ?_⟩
  · simp [hrehangs.parent? (d.lt_size_of_parent? hp)]
  · simp [hrehangs.children_singleton (h.parent_lt hp)]
  · intro x hxc hxp
    apply hrehangs.slot_eq_singleton h hxc
    · rw [hp]
      simpa using hxp.symm
    · simp

theorem removes (p c : NodeId) : Removes d p c where
  refused hc := by
    have hfault : d.node c = .error (.outOfBounds d.size c) := d.node_eq_error_iff.mpr ⟨hc, rfl⟩
    simp [Document.perform, Document.remove, hfault, Except.map, orSame]
  answered hc := by
    obtain ⟨n, hn⟩ := d.exists_node hc
    unfold Document.remove
    rw [d.node_eq_ok_iff.mpr hn, parent?_of_getElem? hn]
    by_cases hp : n.parent = some p <;> simp [Except.map, hp]
  unchanged e he := by
    rcases remove_eq_ok he with ⟨_, hsame⟩ | ⟨htrue, _⟩
    · exact hsame
    · cases htrue
  removed e he := by
    rcases remove_eq_ok he with ⟨hfalse, _⟩ | ⟨_, hp, rfl⟩
    · cases hfalse
    · exact h.child_removed hp

end Coherent

/-- **Structural edits move nodes, or change nothing**: in every document that operations reach, for any
two numbers. -/
theorem edits_rehang (ops : List (Operation κ)) (p c : NodeId) :
    Appends (reached ops : Document κ) p c ∧ Removes (reached ops : Document κ) p c := by
  have h : (reached ops : Document κ).Coherent := coherent_reached ops
  exact ⟨h.appends p c, h.removes p c⟩

end Document

end BoundView.Dom
