import BoundView.Proofs.Tree.Parsing

/-!
# The walks over a document agree

A document is walked in three ways: up along the parent links, down with a list of pending nodes,
and down by recursion over the lists of children. They are compared with an order that is said
without any of them, `DepthFirst`: a node stands in front of what is below it, and what is below it
in front of the nodes behind it. Nothing bounds this order, so a document whose links run in a
circle has none; that a document made by operations has one, and only one, is what its coherence
gives.

Main statement: `traversals_agree`, in every document that operations reach. The nodes below a node
are listed depth first and once each, the walk upward from a node meets exactly the nodes that list
it, and the text of a node is read off the same list.
-/

namespace BoundView.Dom

/-- The text that a node of this content has of its own. -/
def Content.ownText : Content → List Char
  | .text data => data.toList
  | _ => []

namespace Document

variable {κ : Type} {d : Document κ}

/-! ## Depth first -/

/-- **The nodes at and below the given ones, depth first**: each in front of what is below it. -/
inductive DepthFirst (d : Document κ) : List NodeId → List NodeId → Prop
  | nil : d.DepthFirst [] []
  | cons {id : NodeId} {ids below rest : List NodeId} (hbelow : d.DepthFirst (d.children id) below)
      (hrest : d.DepthFirst ids rest) : d.DepthFirst (id :: ids) (id :: (below ++ rest))

/-- There is at most one such order, whatever the links. -/
theorem DepthFirst.unique {ids out out' : List NodeId} (h : d.DepthFirst ids out)
    (h' : d.DepthFirst ids out') : out = out' := by
  induction h generalizing out' with
  | nil => cases h'; rfl
  | cons _ _ ihbelow ihrest =>
    cases h' with
    | cons hbelow hrest => rw [ihbelow hbelow, ihrest hrest]

namespace Coherent

/-- The trees at some nodes, in preorder, are these nodes and those below them depth first. -/
theorem depthFirst_subtrees (h : d.Coherent) (ids : List NodeId) :
    d.DepthFirst ids (d.subtrees ids).preorder := by
  induction ids using h.children_induction with
  | nil =>
    rw [subtrees_nil]
    exact .nil
  | cons id ids ihbelow ihrest =>
    rw [h.subtrees_cons]
    exact .cons ihbelow ihrest

/-- **The walk with pending nodes is depth first**, and nothing else is. -/
theorem depthFirst_children_iff (h : d.Coherent) (id : NodeId) (out : List NodeId) :
    d.DepthFirst (d.children id) out ↔ out = d.descendants id := by
  rw [h.descendants_eq_preorder]
  constructor
  · intro hout
    exact hout.unique (h.depthFirst_subtrees _)
  · rintro rfl
    exact h.depthFirst_subtrees _

theorem preorder_subtrees_singleton (h : d.Coherent) (id : NodeId) :
    (d.subtrees [id]).preorder = id :: d.descendants id := by
  rw [h.subtrees_cons, subtrees_nil, Forest.preorder, Forest.preorder, List.append_nil,
    h.descendants_eq_preorder]

/-- No node is listed below itself, and none twice. -/
theorem nodup_descendants (h : d.Coherent) (id : NodeId) : (id :: d.descendants id).Nodup := by
  rw [← h.preorder_subtrees_singleton]
  exact h.nodup_subtrees (List.pairwise_singleton _ _)

/-! ## Up and down -/

/-- What is listed below a node is there. -/
theorem descendant_lt (h : d.Coherent) {id x : NodeId} (hx : x ∈ d.descendants id) : x < d.size := by
  rw [h.mem_descendants_iff] at hx
  obtain ⟨p, hp, -⟩ := transGen_link_iff.mp hx
  exact h.child_lt ((h.mem_children p x).mpr hp)

/-- **The walk upward finds a node exactly where the walk downward lists it**, and has no other
answer for a node that is there. -/
theorem contains_eq (h : d.Coherent) (ancestor id : NodeId) :
    d.contains ancestor id =
      if id = ancestor ∨ id ∈ d.descendants ancestor then .ok true
      else (d.node id).map fun _ => false := by
  rw [contains]
  by_cases hself : id = ancestor
  · rw [if_pos hself, if_pos (Or.inl hself)]
  rw [if_neg hself]
  by_cases hbelow : id ∈ d.descendants ancestor
  · obtain ⟨n, hn⟩ := d.exists_node (h.descendant_lt hbelow)
    have hup : ancestor ∈ d.ancestors id :=
      h.mem_ancestors_iff.mpr (h.mem_descendants_iff.mp hbelow)
    rw [if_pos (Or.inr hbelow), (node_eq_ok_iff d).mpr hn, Except.map,
      List.contains_iff_mem.mpr hup]
  · have hup : ancestor ∉ d.ancestors id := fun ha =>
      hbelow (h.mem_descendants_iff.mpr (h.mem_ancestors_iff.mp ha))
    rw [if_neg (by simp [hself, hbelow]), List.contains_eq_mem, decide_eq_false hup]

/-! ## Text -/

/-- The texts of the trees at some nodes are the nodes' own texts, in preorder. What stands under a
text or a comment does not count, but nothing stands there. -/
theorem textOf_contents (h : d.Coherent) (ids : List NodeId) :
    textOf (d.contents ids) =
      (d.subtrees ids).preorder.flatMap fun id => (d.content id).ownText := by
  induction ids using h.children_induction with
  | nil => rw [contents_nil, subtrees_nil]; rfl
  | cons id ids ihbelow ihrest =>
    rw [h.contents_cons, h.subtrees_cons, Forest.preorder, List.flatMap_cons, List.flatMap_append,
      ← ihbelow, ← ihrest]
    by_cases hcontainer : (d.content id).isContainer = true
    · cases hc : d.content id with
      | text data => simp [hc, Content.isContainer] at hcontainer
      | comment data => simp [hc, Content.isContainer] at hcontainer
      | _ => simp [textOf, Content.ownText]
    · have hleaf : d.children id = [] := by_contra fun hne => hcontainer (h.container id hne)
      rw [hleaf, contents_nil]
      cases hc : d.content id with
      | text data => simp [textOf, Content.ownText]
      | comment data => simp [textOf, Content.ownText]
      | _ => simp [hc, Content.isContainer] at hcontainer

/-- **The text of a node** is that of the node and of the nodes listed below it, in their order. -/
theorem textContent_eq (h : d.Coherent) (id : NodeId) :
    d.textContent id = (d.node id).map fun _ => String.ofList
      ((id :: d.descendants id).flatMap fun x => (d.content x).ownText) := by
  rw [textContent, h.textOf_contents, h.preorder_subtrees_singleton]

end Coherent

/-- **The walks agree** in every document that operations reach, from every node. The nodes below
it are listed depth first, each once; a node is found upward from another exactly when it is that
node or lists it, and the only other answer, for a node that is there, is that it is not found; and
the text of a node is the texts of the node and of the nodes listed below it, in this order. -/
theorem traversals_agree (ops : List (Operation κ)) (n : NodeId) :
    (∀ out, (reached ops).DepthFirst ((reached ops).children n) out ↔
        out = (reached ops).descendants n) ∧
      (n :: (reached ops).descendants n).Nodup ∧
      (∀ m, (reached ops).contains n m =
        if m = n ∨ m ∈ (reached ops).descendants n then .ok true
        else ((reached ops).node m).map fun _ => false) ∧
      (reached ops).textContent n = ((reached ops).node n).map fun _ => String.ofList
        ((n :: (reached ops).descendants n).flatMap fun x => ((reached ops).content x).ownText) := by
  have h : (reached ops).Coherent := coherent_reached ops
  exact ⟨h.depthFirst_children_iff n, h.nodup_descendants n, h.contains_eq n, h.textContent_eq n⟩

/-- A list that was never attached, with texts at two depths and a comment. -/
example :
    let d : Document Unit := reached [.createElement "ul", .createText "a", .createElement "li",
      .createText "b", .append 1 2, .append 1 3, .append 3 4, .createComment "c", .append 3 5]
    d.descendants 1 = [2, 3, 4, 5] ∧ d.contains 1 4 = .ok true ∧ d.contains 3 2 = .ok false ∧
      d.textContent 1 = .ok "ab" := by
  decide +kernel

end Document

end BoundView.Dom
