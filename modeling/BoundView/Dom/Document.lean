import BoundView.Dom.Content
import BoundView.Forest

/-!
# Documents

A document owns every node it has made. A node is addressed by its number, the number of nodes
made before it; nodes are never freed, so a number once valid stays valid. The document node is
number zero. Reading or changing a node that was never made is a `Fault`.

A listener carries an `action` of a type that the document does not look into: what it means to
run one is decided by the caller.
-/

namespace BoundView.Dom

/-- The number of a node in its document. -/
abbrev NodeId := Nat

/-- **A request that no document can meet.** -/
inductive Fault where
  /-- There is no node of this number. -/
  | outOfBounds (size index : Nat)
  /-- Texts and comments have no children. -/
  | notContainer (parent : NodeId)
  /-- A node can not come under itself. -/
  | cycle (child parent : NodeId)
  deriving DecidableEq, Repr

/-- The text of a fault. -/
def Fault.message : Fault → String
  | .outOfBounds size index =>
    "index out of bounds: the len is " ++ toString size ++ " but the index is " ++ toString index
  | .notContainer parent => "append_child: node #" ++ toString parent ++ " can not have children"
  | .cycle child parent =>
    "append_child: node #" ++ toString child ++ " is an ancestor of #" ++ toString parent

/-- **A listener** for one type of event. -/
structure Listener (κ : Type) where
  id : Nat
  type : String
  action : κ
  deriving DecidableEq, Repr

/-- **A node.** -/
structure Node (κ : Type) where
  content : Content
  parent : Option NodeId
  children : List NodeId
  listeners : List (Listener κ)
  deriving DecidableEq, Repr

/-- A node without parent, children and listeners. -/
def Node.detached {κ : Type} (content : Content) : Node κ := ⟨content, none, [], []⟩

/-- **A document.** -/
structure Document (κ : Type) where
  nodes : Array (Node κ)
  /-- The identifier that the next listener gets. -/
  nextListener : Nat
  deriving DecidableEq, Repr

namespace Document

variable {κ : Type} (d : Document κ)

/-- The document that holds nothing but its own node. -/
def empty : Document κ := ⟨#[.detached .document], 0⟩

instance : Inhabited (Document κ) := ⟨empty⟩

/-- The document node. -/
def root : NodeId := 0

/-- The number of nodes ever made, attached or not. -/
def size : Nat := d.nodes.size

/-- **The node of this number.** -/
def node (id : NodeId) : Except Fault (Node κ) :=
  match d.nodes[id]? with
  | some node => .ok node
  | none => .error (.outOfBounds d.size id)

/-- The parent of a node, if it is there and has one. -/
def parent? (id : NodeId) : Option NodeId := (d.nodes[id]?).bind Node.parent

/-- The children of a node; none if it is not there. -/
def children (id : NodeId) : List NodeId := (d.nodes[id]?).elim [] Node.children

/-- The content of a node; a fragment's if it is not there. -/
def content (id : NodeId) : Content := (d.nodes[id]?).elim .fragment Node.content

/-- Changes one node. -/
def modify (id : NodeId) (f : Node κ → Node κ) : Document κ := { d with nodes := d.nodes.modify id f }

/-- Adds a node that is nobody's child. -/
def push (content : Content) : Document κ := { d with nodes := d.nodes.push (.detached content) }

theorem node_eq_ok_iff {id : NodeId} {n : Node κ} : d.node id = .ok n ↔ d.nodes[id]? = some n := by
  unfold node
  split <;> simp_all

theorem node_eq_error_iff {id : NodeId} {f : Fault} :
    d.node id = .error f ↔ d.size ≤ id ∧ f = .outOfBounds d.size id := by
  unfold node
  split
  · rename_i n h
    have := (Array.getElem?_eq_some_iff.mp h).1
    simp only [size, reduceCtorEq, false_iff, not_and]
    omega
  · rename_i h
    have := Array.getElem?_eq_none_iff.mp h
    simp only [Except.error.injEq, size]
    exact ⟨fun h => ⟨this, h.symm⟩, fun h => h.2.symm⟩

@[simp] theorem size_modify (id : NodeId) (f : Node κ → Node κ) : (d.modify id f).size = d.size := by
  simp [modify, size]

@[simp] theorem size_push (content : Content) : (d.push content).size = d.size + 1 := by
  simp [push, size]

theorem getElem?_modify (id other : NodeId) (f : Node κ → Node κ) :
    (d.modify id f).nodes[other]? =
      if id = other then (d.nodes[other]?).map f else d.nodes[other]? := by
  simp [modify, Array.getElem?_modify]

end Document

end BoundView.Dom
