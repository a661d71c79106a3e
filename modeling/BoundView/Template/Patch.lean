import BoundView.Template.Render

/-!
# Patching rendered nodes

A write to a key affects the texts with a marker for it and, where bound inputs follow writes, the
elements bound to it. Each affected node gets its text derived anew; a node that already holds it
is left alone.
-/

namespace BoundView

open BoundView.Dom (Document Fault NodeId)
open BoundView.Interpolation (Lookup MissingKey resolvedText)

/-- **A rendered node that depends on a key.** -/
inductive Affected where
  | text (node : NodeId) (raw : String)
  | input (node : NodeId) (key : String)
  deriving DecidableEq, Repr

namespace Affected

/-- The node. -/
def node : Affected → NodeId
  | text node _ | input node _ => node

/-- What the node has to hold. -/
def derived (lookup : Lookup) (missing : MissingKey) : Affected → String
  | text _ raw => resolvedText lookup missing raw
  | input _ key => boundText lookup missing key

/-- The traces of deriving it. -/
def traces (lookup : Lookup) (missing : MissingKey) : Affected → List Trace
  | text _ raw => resolveTraces lookup missing raw
  | input _ key => boundTraces lookup key

/-- Writes what the node has to hold, and says whether that changed the node. -/
def write {κ : Type} (d : Document κ) (content : String) : Affected → Except Fault (Bool × Document κ)
  | text node _ => d.setData node content
  | input node _ => d.setValue node content

end Affected

/-- What a key affects in one part. -/
def Part.affected (key : String) (inputs : Bool) : Part → List Affected
  | .text raw (some node) => if (Interpolation.keys raw).contains key then [.text node raw] else []
  | p@(.element _ _ (some node)) =>
    if inputs && p.modelKey? == some key then [.input node key] else []
  | _ => []

/-- **What a key affects in a template**, in preorder. -/
def Template.affected (key : String) (inputs : Bool) (t : Template) : List Affected :=
  t.preorder.flatMap (Part.affected key inputs)

/-- **How much a patch did.** -/
structure PatchStats where
  /-- The nodes whose content was derived anew. -/
  visited : Nat
  /-- The nodes whose content changed. -/
  changed : Nat
  deriving DecidableEq, Repr, Inhabited

/-- **The outcome of a patch.** -/
structure Patched (κ : Type) where
  document : Document κ
  stats : PatchStats
  traces : List Trace
  fault : Option Fault

/-- **Patches affected nodes** in order, up to one that is not in the document. -/
def patch {κ : Type} (lookup : Lookup) (missing : MissingKey) (d : Document κ) :
    List Affected → Patched κ
  | [] => ⟨d, ⟨0, 0⟩, [], none⟩
  | a :: rest =>
    let before := a.traces lookup missing
    match a.write d (a.derived lookup missing) with
    | .error f => ⟨d, ⟨1, 0⟩, before, some f⟩
    | .ok (changed, d) =>
      let later := patch lookup missing d rest
      { later with
        stats :=
          ⟨later.stats.visited + 1, later.stats.changed + if changed then 1 else 0⟩
        traces := before ++ (if changed then [.patched a.node] else []) ++ later.traces }

end BoundView
