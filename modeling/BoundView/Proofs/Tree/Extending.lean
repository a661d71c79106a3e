import BoundView.Proofs.Tree.Planting
import BoundView.Proofs.Tree.Walks

/-!
# Documents that grow beside the nodes they have

A document **extends** another when every node of the other is in it as it was, and no link crosses
between the nodes that were there and the new ones. Planting a forest in a new fragment extends a
document, whatever the document (`extends_plant`).

The new nodes come among the old ones in one way only: a node is emptied, and the children of a new
fragment are moved in their place. On an extension of a coherent document these two edits are met
(`Extends.exists_clear`, `Extends.append_eq_ok`), and the slot of every node after them is read
off its slot before (`getElem?_replaced`, `Extends.getElem?_replaced`).
-/

namespace BoundView.Dom.Document

open Relation (TransGen ReflTransGen)

variable {κ : Type}

/-! ## Whole slots after an edit -/

section Slots

variable (d : Document κ)

/-- Exactly the adopted nodes get the new parent, and nothing else changes in any slot. -/
theorem getElem?_adopt (p : Option NodeId) (ids : List NodeId) (x : NodeId) :
    (d.adopt p ids).nodes[x]? =
      (d.nodes[x]?).map fun n => { n with parent := if x ∈ ids then p else n.parent } := by
  unfold adopt
  induction ids generalizing d with
  | nil => simp
  | cons c ids ih =>
    rw [List.foldl_cons, ih, getElem?_modify]
    cases d.nodes[x]? with
    | none => simp
    | some n =>
      by_cases hc : c = x
      · simp [hc]
      · simp [hc, Ne.symm hc]

/-- Clearing empties one list and cuts the links of its former members. -/
theorem getElem?_clear {id : NodeId} {e : Document κ} (h : d.clear id = .ok e) (x : NodeId) :
    e.nodes[x]? = (d.nodes[x]?).map fun n =>
      { n with
        parent := if x ∈ d.children id then none else n.parent
        children := if x = id then [] else n.children } := by
  obtain ⟨_, rfl⟩ := d.clear_eq_ok h
  rw [getElem?_adopt, getElem?_modify]
  cases d.nodes[x]? with
  | none => simp
  | some n =>
    by_cases hx : id = x
    · simp [hx]
    · simp [hx, Ne.symm hx]

/-- Moving the children of a fragment changes their parent and the two lists. -/
theorem getElem?_moveChildren (p f : NodeId) (moved : List NodeId) (x : NodeId) :
    (d.moveChildren p f moved).nodes[x]? = (d.nodes[x]?).map fun n =>
      { n with
        parent := if x ∈ moved then some p else n.parent
        children := (if x = f then [] else n.children) ++ if x = p then moved else [] } := by
  unfold moveChildren
  rw [getElem?_modify, getElem?_adopt, getElem?_modify]
  cases d.nodes[x]? with
  | none => simp
  | some n =>
    simp only [Option.map_some, eq_comm (a := x)]
    by_cases hp : p = x <;> by_cases hf : f = x <;> simp [hp, hf]

variable {d}

/-- **The slots after a node was emptied and the children of a fragment moved into it.** -/
theorem getElem?_replaced {id fragment : NodeId} {cleared : Document κ}
    (hne : id ≠ fragment) (hclear : d.clear id = .ok cleared) (x : NodeId) :
    (cleared.moveChildren id fragment (cleared.children fragment)).nodes[x]? =
      (d.nodes[x]?).map fun n =>
        { n with
          parent :=
            if x ∈ d.children fragment then some id
            else if x ∈ d.children id then none else n.parent
          children :=
            if x = id then d.children fragment else if x = fragment then [] else n.children } := by
  rw [getElem?_moveChildren, d.getElem?_clear hclear, d.children_clear hclear, if_neg (Ne.symm hne)]
  cases d.nodes[x]? with
  | none => rfl
  | some n =>
    by_cases hx : x = id
    · simp [hx, hne]
    · simp [hx]

end Slots

/-! ## Extensions -/

/-- **A document that extends another**: the nodes that were there are as they were, and the links of
the others stay among the others. -/
structure Extends (d e : Document κ) : Prop where
  kept : ∀ x, x < d.size → e.nodes[x]? = d.nodes[x]?
  parent_ge : ∀ {x p : Nat}, d.size ≤ x → e.parent? x = some p → d.size ≤ p
  child_ge : ∀ {x c : Nat}, d.size ≤ x → c ∈ e.children x → d.size ≤ c

variable {d e : Document κ}

/-- The children that a node of a standing forest lists are nodes of the forest. -/
theorem Standing.le_of_mem_children {parent : Option NodeId} {base : Nat} {f : Forest (Seed κ)}
    (h : d.Standing parent base f) {q c : Nat} (h1 : base ≤ q) (h2 : q < base + f.size)
    (hc : c ∈ d.children q) : base ≤ c := by
  induction f generalizing parent base with
  | nil =>
    simp only [Forest.size] at h2
    omega
  | node seed children rest ihc ihr =>
    obtain ⟨⟨first, hnode⟩, hchildren, hrest⟩ := h
    simp only [Forest.size] at h2
    rcases Nat.lt_or_ge q (base + 1 + children.size) with hlt | hge
    · rcases Nat.eq_or_lt_of_le h1 with rfl | hgt
      · rw [children_of_getElem? hnode] at hc
        have := (Forest.mem_tops hc).1
        omega
      · have := ihc hchildren hgt hlt
        omega
    · have := ihr hrest hge (by omega)
      omega

section Plant

variable (d : Document κ) (seeds : Forest (Seed κ))

/-- The forest stands behind its fragment. -/
theorem standing_plant_fragment :
    ((d.push .fragment).plant d.size seeds).Standing (some d.size) (d.size + 1) seeds := by
  have hfragment : d.size < (d.push .fragment).size := by simp
  have h := (d.push .fragment).standing_plant hfragment seeds
  rwa [size_push] at h

theorem size_plant_fragment :
    ((d.push .fragment).plant d.size seeds).size = d.size + 1 + seeds.size := by
  rw [size_plant, size_push]

/-- The slot of the fragment that a forest was planted in. -/
theorem getElem?_plant_fragment :
    ((d.push .fragment).plant d.size seeds).nodes[d.size]? =
      some ⟨.fragment, none, seeds.tops (d.size + 1), []⟩ := by
  rw [getElem?_plant _ _ _ (by simp), if_pos rfl, getElem?_push, if_pos rfl, size_push]
  rfl

/-- **Planting a forest in a new fragment extends a document.** -/
theorem extends_plant : Extends d ((d.push .fragment).plant d.size seeds) := by
  have hsize := d.size_plant_fragment seeds
  have hfragment := d.getElem?_plant_fragment seeds
  have hstanding := d.standing_plant_fragment seeds
  refine ⟨fun x hx => ?_, fun {x p} hx hp => ?_, fun {x c} hx hc => ?_⟩
  · have hx' : x < (d.push .fragment).size := by
      rw [size_push]
      omega
    rw [getElem?_plant _ _ _ hx', if_neg (Nat.ne_of_gt hx), getElem?_push, if_neg (Nat.ne_of_lt hx)]
  · have hlt := lt_size_of_parent? _ hp
    rcases Nat.eq_or_lt_of_le hx with rfl | hgt
    · rw [parent?_of_getElem? hfragment] at hp
      cases hp
    · rcases hstanding.mem_tops_or_link hgt (hsize ▸ hlt) with htop | ⟨q, hq, _, hlink, _⟩
      · rw [hstanding.parent?_of_mem_tops htop] at hp
        cases hp
        exact Nat.le_refl _
      · rw [hlink] at hp
        cases hp
        omega
  · have hlt := lt_size_of_mem_children _ hc
    rcases Nat.eq_or_lt_of_le hx with rfl | hgt
    · rw [children_of_getElem? hfragment] at hc
      have := (Forest.mem_tops hc).1
      omega
    · have := hstanding.le_of_mem_children hgt (hsize ▸ hlt) hc
      omega

end Plant

namespace Extends

theorem size_le (h : Extends d e) : d.size ≤ e.size := by
  rcases Nat.eq_zero_or_pos d.size with hz | hpos
  · omega
  · have hlast : d.size - 1 < d.size := by omega
    obtain ⟨n, hn⟩ := d.exists_node hlast
    rw [← h.kept _ hlast] at hn
    have hlt : d.size - 1 < e.size := lt_size_of_getElem? _ hn
    omega

section Kept

variable {x : Nat}

theorem parent?_eq (h : Extends d e) (hx : x < d.size) : e.parent? x = d.parent? x := by
  unfold parent?
  rw [h.kept x hx]

theorem children_eq (h : Extends d e) (hx : x < d.size) : e.children x = d.children x := by
  unfold children
  rw [h.kept x hx]

theorem content_eq (h : Extends d e) (hx : x < d.size) : e.content x = d.content x := by
  unfold content
  rw [h.kept x hx]

end Kept

/-- Making one more node that is nobody's child. -/
theorem push (h : Extends d e) (content : Content) : Extends d (e.push content) where
  kept x hx := by
    have hx' : x < e.size := Nat.lt_of_lt_of_le hx h.size_le
    rw [getElem?_push, if_neg (Nat.ne_of_lt hx')]
    exact h.kept x hx
  parent_ge hx hp := by
    rw [parent?_push] at hp
    exact h.parent_ge hx hp
  child_ge hx hc := by
    rw [children_push] at hc
    exact h.child_ge hx hc

/-- A document whose new nodes have lost links, and whose old ones are as they were. -/
theorem of_fewer (h : Extends d e) {e' : Document κ} (kept : ∀ x, x < d.size → e'.nodes[x]? = e.nodes[x]?)
    (hparent : ∀ {x p : Nat}, e'.parent? x = some p → e.parent? x = some p)
    (hchildren : ∀ {x c : Nat}, c ∈ e'.children x → c ∈ e.children x) : Extends d e' where
  kept x hx := (kept x hx).trans (h.kept x hx)
  parent_ge hx hp := h.parent_ge hx (hparent hp)
  child_ge hx hc := h.child_ge hx (hchildren hc)

/-! ## A new fragment in the place of a node's children -/

section Replacing

variable {id fragment : Nat} {cleared : Document κ}

theorem exists_clear (h : Extends d e) (hid : id < d.size) : ∃ cleared, e.clear id = .ok cleared := by
  obtain ⟨n, hn⟩ := e.exists_node (Nat.lt_of_lt_of_le hid h.size_le)
  unfold Document.clear
  rw [(e.node_eq_ok_iff).mpr hn]
  exact ⟨_, rfl⟩

/-- **A new fragment can be appended to an old node** that may have children, also after links were
cut. -/
theorem append_eq_ok (h : Extends d e) (hd : d.Coherent) {e' : Document κ} (same : SameContent e e')
    (hfewer : ∀ x p, e'.parent? x = some p → e.parent? x = some p) (hid : id < d.size)
    (hcontainer : (d.content id).isContainer = true) (hge : d.size ≤ fragment)
    (hlt : fragment < e.size) (hfragment : e.content fragment = .fragment) :
    e'.append id fragment = .ok (e'.moveChildren id fragment (e'.children fragment)) := by
  have hid' : id < e.size := Nat.lt_of_lt_of_le hid h.size_le
  apply e'.append_fragment
  · rw [same.size]
    exact hid'
  · rw [same.size]
    exact hlt
  · rw [same.content, h.content_eq hid]
    exact hcontainer
  · rw [same.content]
    exact hfragment
  · exact Nat.ne_of_lt (Nat.lt_of_lt_of_le hid hge)
  · intro hmem
    have hlink : ∀ x p : Nat, x < d.size → e'.parent? x = some p → p < d.size := by
      intro x p hx hp
      have hold := hfewer x p hp
      rw [h.parent?_eq hx] at hold
      exact hd.parent_lt hold
    exact absurd (of_mem_ancestors hlink hid hmem) (Nat.not_lt.mpr hge)

/-- Clearing a node cuts links and makes none. -/
theorem parent?_of_clear (h : Extends d e) (hd : d.Coherent) (hid : id < d.size)
    (hclear : e.clear id = .ok cleared) (x p : NodeId) (hp : cleared.parent? x = some p) :
    e.parent? x = some p := by
  have hbound : ∀ c ∈ e.children id, c < e.size := fun c hc =>
    Nat.lt_of_lt_of_le (hd.child_lt (h.children_eq hid ▸ hc)) h.size_le
  rw [e.parent?_clear hclear hbound] at hp
  split at hp
  · cases hp
  · exact hp

/-- Clearing a node without children keeps every node. -/
theorem clear_childless (h : Extends d e) (hd : d.Coherent) (hid : id < d.size)
    (hnone : d.children id = []) (hclear : e.clear id = .ok cleared) : Extends d cleared := by
  have hnone' : e.children id = [] := (h.children_eq hid).trans hnone
  refine h.of_fewer (fun x _ => ?_) (fun {x p} => h.parent?_of_clear hd hid hclear x p)
    fun {x c} hc => ?_
  · rw [e.getElem?_clear hclear, hnone']
    cases hx : e.nodes[x]? with
    | none => rfl
    | some n =>
      obtain ⟨content, parent, children, listeners⟩ := n
      by_cases heq : x = id
      · rw [← heq, children_of_getElem? hx] at hnone'
        obtain rfl : children = [] := hnone'
        simp [heq]
      · simp [heq]
  · rw [e.children_clear hclear] at hc
    split at hc
    · cases hc
    · exact hc

/-- **Of the nodes that were there only the emptied node and its former children change**: it has
the children of the fragment, they have no parent. -/
theorem getElem?_replaced (h : Extends d e) (hid : id < d.size) (hge : d.size ≤ fragment)
    (hclear : e.clear id = .ok cleared) {x : Nat} (hx : x < d.size) :
    (cleared.moveChildren id fragment (cleared.children fragment)).nodes[x]? =
      (d.nodes[x]?).map fun n =>
        { n with
          parent := if x ∈ d.children id then none else n.parent
          children := if x = id then e.children fragment else n.children } := by
  have hne : id ≠ fragment := by omega
  have hold : x ∉ e.children fragment := fun hmem => by
    have := h.child_ge hge hmem
    omega
  have hother : x ≠ fragment := by omega
  rw [Document.getElem?_replaced hne hclear, h.kept x hx, h.children_eq hid]
  simp only [hold, hother, if_false]

/-- Appending a new fragment changes one list. -/
theorem getElem?_appended (h : Extends d e) (hge : d.size ≤ fragment) {x : Nat} (hx : x < d.size) :
    (e.moveChildren id fragment (e.children fragment)).nodes[x]? =
      (d.nodes[x]?).map fun n =>
        { n with
          children := if x = id then n.children ++ e.children fragment else n.children } := by
  have hold : x ∉ e.children fragment := fun hmem => by
    have := h.child_ge hge hmem
    omega
  have hother : x ≠ fragment := by omega
  rw [getElem?_moveChildren, h.kept x hx]
  cases d.nodes[x]? with
  | none => rfl
  | some n =>
    by_cases heq : x = id
    · subst heq
      simp [hold, hother]
    · simp [heq, hold, hother]

end Replacing

end Extends

end BoundView.Dom.Document
