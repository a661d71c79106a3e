import BoundView.Proofs.Tree.Extending
import BoundView.Proofs.Tree.Reachable

/-!
# Growing a forest node by node

Planting a forest is the same as planting its parts one after the other: the trees of a second forest
behind those of a first, the children of a tree behind its root. So a forest can be grown while it is
read, each node made when it is met and appended to the node that is open at that moment.

Main statements: `plant_append`, `plant_node`, `plant_close`, and `append_push`, making one node and
appending it is planting it.
-/

namespace BoundView.Forest

variable {α : Type}

theorem layout_append (parent : Option Nat) (base : Nat) (f g : Forest α) :
    (f ++ g).layout parent base = f.layout parent base ++ g.layout parent (base + f.size) := by
  induction f generalizing base with
  | nil => simp [layout, size]
  | node a children rest _ ih => simp [layout, size, ih, Nat.add_assoc]

@[simp] theorem size_map {β : Type} (f : α → β) (g : Forest α) : (g.map f).size = g.size := by
  induction g with
  | nil => rfl
  | node a children rest ihc ihr => simp [map, size, ihc, ihr]

end BoundView.Forest

namespace BoundView.Dom.Document

open BoundView.Markup (Builder Nodes Open)

variable {κ : Type} (d : Document κ)

/-! ## Documents slot by slot -/

theorem ext_slots {d e : Document κ} (hnodes : ∀ x : Nat, e.nodes[x]? = d.nodes[x]?)
    (hnext : e.nextListener = d.nextListener) : e = d := by
  obtain ⟨nodes, next⟩ := d
  obtain ⟨nodes', next'⟩ := e
  have hsame : nodes' = nodes := Array.ext_getElem? hnodes
  have hnext' : next' = next := hnext
  rw [hsame, hnext']

theorem modify_modify (id : NodeId) (f g : Node κ → Node κ) :
    (d.modify id f).modify id g = d.modify id (g ∘ f) := by
  refine ext_slots (fun x => ?_) rfl
  simp only [getElem?_modify]
  split
  · rw [Option.map_map]
  · rfl

theorem modify_comm {id other : NodeId} (h : id ≠ other) (f g : Node κ → Node κ) :
    (d.modify id f).modify other g = (d.modify other g).modify id f := by
  refine ext_slots (fun x => ?_) rfl
  simp only [getElem?_modify]
  by_cases hid : id = x
  · have hother : other ≠ x := fun he => h (hid.trans he.symm)
    simp [hid, hother]
  · simp [hid]

/-- A change of an old node can be made before or after a new one is made. -/
theorem pushPlaced_modify {id : NodeId} (hid : id < d.size) (f : Node κ → Node κ)
    (p : Forest.Placed (Seed κ)) :
    (d.modify id f).pushPlaced p = (d.pushPlaced p).modify id f := by
  refine ext_slots (fun x => ?_) rfl
  rw [getElem?_pushPlaced, getElem?_modify, getElem?_modify, getElem?_pushPlaced, size_modify]
  by_cases hx : x = d.size
  · rw [if_pos hx, if_pos hx, if_neg (by rintro rfl; exact Nat.ne_of_lt hid hx)]
    rfl
  · rw [if_neg hx, if_neg hx]

theorem foldl_pushPlaced_modify {id : NodeId} (hid : id < d.size) (f : Node κ → Node κ)
    (ps : List (Forest.Placed (Seed κ))) :
    ps.foldl pushPlaced (d.modify id f) = (ps.foldl pushPlaced d).modify id f := by
  induction ps generalizing d with
  | nil => rfl
  | cons p ps ih =>
    have hid' : id < (d.pushPlaced p).size := by
      rw [size_pushPlaced]
      exact Nat.lt_succ_of_lt hid
    rw [List.foldl_cons, List.foldl_cons, d.pushPlaced_modify hid, ih _ hid']

/-- A new node can be given its children later. -/
theorem pushPlaced_children (seed : Seed κ) (parent : Option NodeId) (children : List NodeId) :
    d.pushPlaced ⟨seed, parent, children⟩ =
      (d.pushPlaced ⟨seed, parent, []⟩).modify d.size fun n =>
        { n with children := n.children ++ children } := by
  refine ext_slots (fun x => ?_) rfl
  rw [getElem?_pushPlaced, getElem?_modify, getElem?_pushPlaced]
  by_cases hx : x = d.size
  · simp [hx]
  · simp [hx, Ne.symm hx]

/-! ## Planting in parts -/

variable {parent : Nat}

theorem plant_nil (parent : NodeId) : d.plant parent .nil = d := by
  refine ext_slots (fun x => ?_) rfl
  show (d.modify parent _).nodes[x]? = _
  rw [getElem?_modify]
  split
  · cases d.nodes[x]? <;> simp [Forest.tops]
  · rfl

/-- **Trees are planted behind others.** -/
theorem plant_append (hparent : parent < d.size) (f g : Forest (Seed κ)) :
    d.plant parent (f ++ g) = (d.plant parent f).plant parent g := by
  have hsize : ((f.layout (some parent) d.size).foldl pushPlaced d).size = d.size + f.size := by
    rw [size_foldl_pushPlaced, Forest.length_layout]
  have hparent' : parent < ((f.layout (some parent) d.size).foldl pushPlaced d).size := by
    omega
  unfold plant
  simp only [size_modify, hsize, Forest.layout_append, List.foldl_append, Forest.tops_append]
  rw [foldl_pushPlaced_modify _ hparent', modify_modify]
  congr 1
  funext n
  simp

/-- **The children of a tree are planted behind its root.** -/
theorem plant_node (hparent : parent < d.size) (seed : Seed κ) (children : Forest (Seed κ)) :
    d.plant parent (.node seed children .nil) =
      (d.plant parent (.single seed)).plant d.size children := by
  have hsize : ((d.pushPlaced ⟨seed, some parent, []⟩).modify parent fun n =>
      { n with children := n.children ++ [d.size] }).size = d.size + 1 := by
    rw [size_modify, size_pushPlaced]
  have hparent' : parent < (d.pushPlaced ⟨seed, some parent, []⟩).size := by
    rw [size_pushPlaced]
    exact Nat.lt_succ_of_lt hparent
  have hself : d.size < (d.pushPlaced ⟨seed, some parent, []⟩).size := by
    rw [size_pushPlaced]
    exact Nat.lt_succ_self _
  have hne : parent ≠ d.size := Nat.ne_of_lt hparent
  have hsingle : d.plant parent (.single seed) =
      (d.pushPlaced ⟨seed, some parent, []⟩).modify parent fun n =>
        { n with children := n.children ++ [d.size] } := rfl
  rw [hsingle]
  unfold plant
  dsimp only
  rw [hsize, foldl_pushPlaced_modify _ hparent', modify_comm _ hne, ← foldl_pushPlaced_modify _ hself,
    ← pushPlaced_children]
  simp [Forest.layout, Forest.tops]

/-! ## Trees under construction -/

/-- The size of a tree under construction grows by what comes into the innermost open element. -/
theorem size_close_append (stack : List Open) (inner added : Nodes) :
    (Builder.close stack (inner ++ added)).size = (Builder.close stack inner).size + added.size := by
  induction stack generalizing inner added with
  | nil => exact Forest.size_append inner added
  | cons o stack ih => simp [Builder.close, ih, Forest.size, Nat.add_assoc]

/-- The node of the innermost open element, when the tree under construction is planted under `parent`
behind `base` nodes. -/
def openNode (base parent : Nat) : List Open → Nat
  | [] => parent
  | o :: stack => base + (Builder.close stack o.before).size

theorem openNode_lt (hparent : parent < d.size) (stack : List Open) (inner : Nodes) :
    openNode d.size parent stack < d.size + (Builder.close stack inner).size := by
  cases stack with
  | nil => exact Nat.lt_of_lt_of_le hparent (Nat.le_add_right _ _)
  | cons o stack =>
    rw [Builder.close, size_close_append]
    simp only [openNode, Forest.size]
    omega

/-- **What comes into the innermost open element is planted into its node.** -/
theorem plant_close (hparent : parent < d.size) (stack : List Open) (inner added : Nodes) :
    d.plant parent ((Builder.close stack (inner ++ added)).map Seed.plain) =
      (d.plant parent ((Builder.close stack inner).map Seed.plain)).plant
        (openNode d.size parent stack) (added.map Seed.plain) := by
  induction stack generalizing inner added with
  | nil =>
    simp only [Builder.close, openNode, Forest.map_append]
    exact d.plant_append hparent _ _
  | cons o stack ih =>
    have hsize : (d.plant parent ((Builder.close stack o.before).map Seed.plain)).size =
        openNode d.size parent (o :: stack) := by
      rw [size_plant, Forest.size_map]
      rfl
    have hlt : openNode d.size parent stack <
        (d.plant parent ((Builder.close stack o.before).map Seed.plain)).size := by
      rw [size_plant, Forest.size_map]
      exact d.openNode_lt hparent stack o.before
    -- the element that is open is planted first, then what is in it
    have hopen : ∀ nodes : Nodes,
        d.plant parent ((Builder.close (o :: stack) nodes).map Seed.plain) =
          ((d.plant parent ((Builder.close stack o.before).map Seed.plain)).plant
            (openNode d.size parent stack) (.single (.plain (.element o.element)))).plant
              (openNode d.size parent (o :: stack)) (nodes.map Seed.plain) := by
      intro nodes
      rw [Builder.close, ih, ← hsize]
      exact plant_node _ hlt _ _
    rw [hopen, hopen, Forest.map_append]
    apply plant_append
    rw [size_plant, hsize]
    exact Nat.lt_succ_self _

/-- What the innermost open element is. -/
theorem content_openNode (hparent : parent < d.size) (o : Open) (stack : List Open) (inner : Nodes) :
    (d.plant parent ((Builder.close (o :: stack) inner).map Seed.plain)).content
      (openNode d.size parent (o :: stack)) = .element o.element := by
  have hsize : (d.plant parent ((Builder.close stack o.before).map Seed.plain)).size =
      openNode d.size parent (o :: stack) := by
    rw [size_plant, Forest.size_map]
    rfl
  have hlt : openNode d.size parent stack <
      (d.plant parent ((Builder.close stack o.before).map Seed.plain)).size := by
    rw [size_plant, Forest.size_map]
    exact d.openNode_lt hparent stack o.before
  obtain ⟨⟨first, hnode⟩, _⟩ := standing_plant _ hlt
    (.node (.plain (.element o.element)) (inner.map Seed.plain) .nil)
  rw [Builder.close, d.plant_close hparent, ← hsize]
  exact content_of_getElem? hnode

/-! ## Making one node and appending it -/

/-- Appending a node that is no fragment. -/
theorem append_node {p c : NodeId} (hp : p < d.size) (hc : c < d.size)
    (hcontainer : (d.content p).isContainer = true) (hother : d.content c ≠ .fragment) (hne : p ≠ c)
    (habove : c ∉ d.ancestors p) : d.append p c = .ok (d.moveNode p c) := by
  obtain ⟨np, hnp⟩ := d.exists_node hp
  obtain ⟨nc, hnc⟩ := d.exists_node hc
  rw [content_of_getElem? hnp] at hcontainer
  rw [content_of_getElem? hnc] at hother
  have hcycle : ¬ (p = c ∨ c ∈ d.ancestors p) := by
    rintro (he | hm)
    · exact hne he
    · exact habove hm
  unfold append
  rw [(d.node_eq_ok_iff).mpr hnp, (d.node_eq_ok_iff).mpr hnc]
  dsimp only
  rw [hcontainer, if_neg (by decide), if_neg hcycle]
  split
  · contradiction
  · rfl

/-- **Making a node and appending it is planting it**, where nothing above its parent is new. -/
theorem append_push {p : Nat} (hp : p < d.size) (hcontainer : (d.content p).isContainer = true)
    {content : Content} (hother : content ≠ .fragment)
    (habove : ∀ a : Nat, a ∈ (d.push content).ancestors p → a < d.size) :
    (d.push content).append p d.size = .ok (d.plant p (.single (.plain content))) := by
  have hp' : p < (d.push content).size := by
    rw [size_push]
    exact Nat.lt_succ_of_lt hp
  have hnew : d.size < (d.push content).size := by
    rw [size_push]
    exact Nat.lt_succ_self _
  have hparent : (d.push content).parent? d.size = none := by
    rw [parent?_push]
    unfold parent?
    rw [d.getElem?_eq_none_of_size_le (Nat.le_refl _)]
    rfl
  have hmade : ((d.push content).modify d.size fun n => { n with parent := some p }) =
      d.pushPlaced ⟨.plain content, some p, []⟩ := by
    refine ext_slots (fun x => ?_) rfl
    rw [getElem?_pushPlaced, getElem?_modify, getElem?_push]
    by_cases hx : x = d.size
    · simp [hx, Node.detached, Seed.plain, numbered]
    · simp [hx, Ne.symm hx]
  have hmoved : (d.push content).moveNode p d.size = d.plant p (.single (.plain content)) := by
    unfold moveNode detach
    rw [hparent]
    dsimp only
    rw [hmade]
    rfl
  rw [append_node _ hp' hnew ?_ ?_ (Nat.ne_of_lt hp) ?_, hmoved]
  · rw [content_push, if_neg (Nat.ne_of_lt hp)]
    exact hcontainer
  · rw [content_push, if_pos rfl]
    exact hother
  · intro hmem
    exact Nat.lt_irrefl _ (habove _ hmem)

end BoundView.Dom.Document
