import BoundView.Dom.Document

/-!
# Walks over a document

Three walks: up along the parents, down along the children with a list of pending nodes, and down
as a forest. In a document that was made by edits no walk meets a node twice, so the number of
nodes bounds each of them.
-/

namespace BoundView.Dom

/-- The texts of a forest, in order; what lies under a text or a comment does not count. -/
def textOf : Forest Content → List Char
  | .nil => []
  | .node (.text data) _ rest => data.toList ++ textOf rest
  | .node (.comment _) _ rest => textOf rest
  | .node _ children rest => textOf children ++ textOf rest

namespace Document

variable {κ : Type} (d : Document κ)

/-! ## Up -/

/-- The given parent and the nodes above it, at most `fuel` of them. -/
def climb : Nat → Option NodeId → List NodeId
  | 0, _ => []
  | _ + 1, none => []
  | fuel + 1, some id => id :: climb fuel (d.parent? id)

/-- **The nodes above a node**, innermost first. -/
def ancestors (id : NodeId) : List NodeId := d.climb d.size (d.parent? id)

/-- **Whether a node is another or lies below it.** -/
def contains (ancestor id : NodeId) : Except Fault Bool :=
  if id = ancestor then .ok true
  else (d.node id).map fun _ => (d.ancestors id).contains ancestor

/-! ## Down, with pending nodes -/

/-- The pending nodes in preorder, each with what is below it, at most `fuel` nodes. -/
def drain : Nat → List NodeId → List NodeId
  | 0, _ => []
  | _ + 1, [] => []
  | fuel + 1, id :: pending => id :: drain fuel (d.children id ++ pending)

/-- **The nodes below a node**, in preorder. -/
def descendants (id : NodeId) : List NodeId := d.drain d.size (d.children id)

/-! ## Down, as a forest -/

/-- The nodes and what is below them, at most `depth` levels. -/
def grow : Nat → List NodeId → Forest NodeId
  | 0, _ => .nil
  | depth + 1, ids => ids.foldr (fun id rest => .node id (grow depth (d.children id)) rest) .nil

/-- **The trees at the given nodes.** -/
def subtrees (ids : List NodeId) : Forest NodeId := d.grow d.size ids

/-- **What the trees at the given nodes hold.** -/
def contents (ids : List NodeId) : Forest Content := (d.subtrees ids).map d.content

/-- **The text of a node**: its own and that of the nodes below it. -/
def textContent (id : NodeId) : Except Fault String :=
  (d.node id).map fun _ => String.ofList (textOf (d.contents [id]))

end Document

end BoundView.Dom
