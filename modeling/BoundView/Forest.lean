/-!
# Ordered forests

A forest is a list of labelled trees, kept as first child and next sibling: one type, one
recursion. Parsed markup, compiled templates and the subtrees of a document are forests, so
reading, writing and comparing them never looks at node handles.

Handles enter through the **numbering** of a forest: its nodes in preorder take consecutive
numbers. `tops` are the numbers of the top nodes, `layout` lists for each node in preorder its
label, the number of its parent and the numbers of its children.
-/

namespace BoundView

universe u v

/-- **An ordered forest**: the first tree's label, its children, and the trees beside it. -/
inductive Forest (α : Type u) where
  | nil
  | node (label : α) (children rest : Forest α)
  deriving DecidableEq, Repr, Inhabited

namespace Forest

variable {α : Type u} {β : Type v}

/-- The number of nodes. -/
def size : Forest α → Nat
  | nil => 0
  | node _ children rest => 1 + children.size + rest.size

/-- The number of trees. -/
def width : Forest α → Nat
  | nil => 0
  | node _ _ rest => rest.width + 1

/-- The trees of the first forest, then those of the second. -/
def append : Forest α → Forest α → Forest α
  | nil, g => g
  | node a children rest, g => node a children (rest.append g)

instance : Append (Forest α) := ⟨append⟩

/-- One node without children. -/
def single (a : α) : Forest α := node a nil nil

/-- The same shape with other labels. -/
def map (f : α → β) : Forest α → Forest β
  | nil => nil
  | node a children rest => node (f a) (children.map f) (rest.map f)

/-- **The labels in preorder.** -/
def preorder : Forest α → List α
  | nil => []
  | node a children rest => a :: (children.preorder ++ rest.preorder)

/-- The labels in preorder with the number of ancestors of each, counted from `depth`. -/
def outline (depth : Nat) : Forest α → List (Nat × α)
  | nil => []
  | node a children rest => (depth, a) :: (children.outline (depth + 1) ++ rest.outline depth)

/-- The children of the tree with this index. -/
def childrenOf? : Forest α → Nat → Option (α × Forest α)
  | nil, _ => none
  | node a children _, 0 => some (a, children)
  | node _ _ rest, i + 1 => rest.childrenOf? i

/-- The label at the end of a path of indices. -/
def at? : Forest α → List Nat → Option α
  | _, [] => none
  | f, [i] => (f.childrenOf? i).map Prod.fst
  | f, i :: path =>
    match f.childrenOf? i with
    | some (_, children) => children.at? path
    | none => none

/-- **The numbers of the top nodes** when the forest is numbered in preorder from `base`. -/
def tops (base : Nat) : Forest α → List Nat
  | nil => []
  | node _ children rest => base :: rest.tops (base + 1 + children.size)

/-- A node of a numbered forest. -/
structure Placed (α : Type u) where
  label : α
  parent : Option Nat
  children : List Nat
  deriving DecidableEq, Repr

/-- **The nodes in preorder**, numbered from `base`, with the numbers of parent and children. -/
def layout (parent : Option Nat) (base : Nat) : Forest α → List (Placed α)
  | nil => []
  | node a children rest =>
    ⟨a, parent, children.tops (base + 1)⟩ ::
      (children.layout (some base) (base + 1) ++ rest.layout parent (base + 1 + children.size))

@[simp] theorem nil_append (g : Forest α) : nil ++ g = g := rfl

@[simp] theorem node_append (a : α) (children rest g : Forest α) :
    node a children rest ++ g = node a children (rest ++ g) := rfl

@[simp] theorem append_nil (f : Forest α) : f ++ nil = f := by
  induction f with
  | nil => rfl
  | node a children rest _ ih => simp [ih]

theorem append_assoc (f g h : Forest α) : f ++ g ++ h = f ++ (g ++ h) := by
  induction f with
  | nil => rfl
  | node a children rest _ ih => simp [ih]

@[simp] theorem size_append (f g : Forest α) : (f ++ g).size = f.size + g.size := by
  induction f with
  | nil => simp [size]
  | node a children rest _ ih => simp [size, ih]; omega

@[simp] theorem preorder_append (f g : Forest α) :
    (f ++ g).preorder = f.preorder ++ g.preorder := by
  induction f with
  | nil => simp [preorder]
  | node a children rest _ ih => simp [preorder, ih]

@[simp] theorem preorder_map (f : α → β) (g : Forest α) :
    (g.map f).preorder = g.preorder.map f := by
  induction g with
  | nil => rfl
  | node a children rest ihc ihr => simp [preorder, map, ihc, ihr]

theorem map_append (f : α → β) (g h : Forest α) : (g ++ h).map f = g.map f ++ h.map f := by
  induction g with
  | nil => rfl
  | node a children rest _ ih => simp [map, ih]

@[simp] theorem length_layout (parent : Option Nat) (base : Nat) (f : Forest α) :
    (f.layout parent base).length = f.size := by
  induction f generalizing parent base with
  | nil => rfl
  | node a children rest ihc ihr => simp [layout, size, ihc, ihr]; omega

/-- The layout lists the labels in preorder. -/
theorem map_label_layout (parent : Option Nat) (base : Nat) (f : Forest α) :
    (f.layout parent base).map Placed.label = f.preorder := by
  induction f generalizing parent base with
  | nil => rfl
  | node a children rest ihc ihr => simp [layout, preorder, ihc, ihr]

theorem tops_append (base : Nat) (f g : Forest α) :
    (f ++ g).tops base = f.tops base ++ g.tops (base + f.size) := by
  induction f generalizing base with
  | nil => simp [tops, size]
  | node a children rest _ ih => simp [tops, size, ih, Nat.add_assoc]

end Forest

end BoundView
