import BoundView.Proofs.Markup.Joining

/-!
# The elements of a forest

The **skeleton** of a forest is its elements with their tags and attributes, nested and in order as
they are. Texts and comments come and go without changing it, and so do live values: the skeleton of
what comes back from markup is that of what was written.

Main statements: `skeleton_joined`, `skeleton_pruned`, `skeleton_map_written`.
-/

namespace BoundView.Markup

open BoundView.Dom (Attributes Content Element)

/-- **The elements of a forest** with their tags and attributes. -/
def skeleton : Forest Content → Forest (String × Attributes)
  | .nil => .nil
  | .node (.element e) children rest =>
    .node (e.tag, e.attributes) (skeleton children) (skeleton rest)
  | .node _ _ rest => skeleton rest

theorem skeleton_joinText (data : String) (f : Forest Content) :
    skeleton (joinText data f) = skeleton f := by
  unfold joinText
  split <;> rfl

/-- Joining texts keeps the skeleton. -/
theorem skeleton_joined (f : Forest Content) : skeleton (joined f) = skeleton f := by
  induction f with
  | nil => rfl
  | node c children rest ihc ihr =>
    cases c with
    | element e =>
      show Forest.node _ (skeleton (joined children)) (skeleton (joined rest)) = _
      rw [ihc, ihr]
      rfl
    | text data =>
      show skeleton (joinText data (joined rest)) = skeleton rest
      rw [skeleton_joinText, ihr]
    | comment _ | document | fragment => exact ihr

/-- Dropping empty texts keeps the skeleton. -/
theorem skeleton_pruned (f : Forest Content) : skeleton (pruned f) = skeleton f := by
  induction f with
  | nil => rfl
  | node c children rest ihc ihr =>
    cases c with
    | element e =>
      show Forest.node _ (skeleton (pruned children)) (skeleton (pruned rest)) = _
      rw [ihc, ihr]
      rfl
    | text data =>
      unfold pruned
      split <;> exact ihr
    | comment _ | document | fragment => exact ihr

/-- Live values are no part of the skeleton. -/
theorem skeleton_map_written (f : Forest Content) : skeleton (f.map written) = skeleton f := by
  induction f with
  | nil => rfl
  | node c children rest ihc ihr =>
    cases c with
    | element e =>
      show Forest.node _ (skeleton (children.map written)) (skeleton (rest.map written)) = _
      rw [ihc, ihr]
      rfl
    | text _ | comment _ | document | fragment => exact ihr

/-! ## Without verbatim elements -/

/-- **A forest without verbatim elements**: every text in it is escaped. -/
def Plain (f : Forest Content) : Prop := ∀ c ∈ f.preorder, holdsVerbatim c = false

theorem plain_node {c : Content} {children rest : Forest Content} :
    Plain (.node c children rest) ↔ holdsVerbatim c = false ∧ Plain children ∧ Plain rest := by
  unfold Plain
  show (∀ x ∈ c :: (children.preorder ++ rest.preorder), _) ↔ _
  rw [List.forall_mem_cons, List.forall_mem_append]

/-- Live values make no element verbatim. -/
theorem plain_map_written {f : Forest Content} : Plain (f.map written) ↔ Plain f := by
  induction f with
  | nil => exact Iff.rfl
  | node c children rest ihc ihr =>
    show Plain (.node (written c) (children.map written) (rest.map written)) ↔ _
    rw [plain_node, plain_node, ihc, ihr]
    cases c <;> exact Iff.rfl

end BoundView.Markup
