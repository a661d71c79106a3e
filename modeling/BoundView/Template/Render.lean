import BoundView.Dom.Edit
import BoundView.Interpolation.Resolve
import BoundView.Template.Basic
import BoundView.Trace

/-!
# Rendering a template

A template, a lookup and a policy make a forest of new nodes: comments are left out, texts are
resolved, elements keep their plain attributes, and a bound element starts with its key's text as
its value. The listeners of an element are those of its events in order, then the one that carries
edits of its value back to its key.

The rendered forest is planted in a document in preorder, so the handles of the parts are the
numbers of that order. Rendering into a node that takes no children fails at the first new node:
that node is made, its part remembers it, and nothing else happens.
-/

namespace BoundView

open BoundView.Dom (Attributes Content Document Element Fault NodeId Seed)
open BoundView.Interpolation (Lookup MissingKey resolve)

/-- **Supplies the listeners** of rendered elements. -/
structure Binder (κ : Type) where
  /-- The listener for an event attribute with this value. -/
  method : String → κ
  /-- The listener that writes an element's value into this key. -/
  model : String → κ

/-- **What rendering reads.** -/
structure RenderContext (κ : Type) where
  lookup : Lookup
  missing : MissingKey
  binder : Binder κ

/-- The text that an element bound to a key holds. -/
def boundText (lookup : Lookup) (missing : MissingKey) (key : String) : String :=
  match lookup key with
  | some text => text
  | none => if missing = .undefined then "undefined" else ""

/-- The traces of resolving a text. -/
def resolveTraces (lookup : Lookup) (missing : MissingKey) (raw : String) : List Trace :=
  (resolve lookup missing raw).missing.map .undeclaredMarker

/-- The traces of looking up the key of a bound element. -/
def boundTraces (lookup : Lookup) (key : String) : List Trace :=
  if (lookup key).isSome then [] else [.undeclaredModel key]

namespace Part

variable {κ : Type}

/-- **The node that a part becomes**; none for a comment. -/
def seed? (context : RenderContext κ) (p : Part) : Option (Seed κ) :=
  match p with
  | .comment _ => none
  | .text raw _ =>
    some (.plain (.text (Interpolation.resolvedText context.lookup context.missing raw)))
  | .element tag _ _ =>
    let attributes : Attributes := p.plain.foldl (fun as (name, value) => as.set name value) []
    let value := p.modelKey?.map (boundText context.lookup context.missing)
    let listeners := p.events.map fun (type, method) => (type, context.binder.method method)
    let edits := p.modelKey?.toList.map fun key => ("input", context.binder.model key)
    some ⟨.element ⟨Text.lowercase tag, attributes, value⟩, listeners ++ edits⟩

/-- The traces of making a part's node. -/
def traces (lookup : Lookup) (missing : MissingKey) (p : Part) : List Trace :=
  match p with
  | .comment _ => []
  | .text raw _ => resolveTraces lookup missing raw
  | .element .. => p.modelKey?.toList.flatMap (boundTraces lookup)

end Part

namespace Template

variable {κ : Type}

/-- **The forest that a template renders to.** -/
def seeds (context : RenderContext κ) : Template → Forest (Seed κ)
  | .nil => .nil
  | .node p children rest =>
    match p.seed? context with
    | some seed => .node seed (seeds context children) (seeds context rest)
    | none => seeds context rest

/-- The number of nodes that a template renders to. -/
def renderedSize : Template → Nat
  | .nil => 0
  | .node p children rest =>
    (if p.isRendered then 1 + renderedSize children else 0) + renderedSize rest

/-- **Handles in preorder**: the parts that have nodes get consecutive numbers from `base`. -/
def place (base : NodeId) : Template → Template
  | .nil => .nil
  | .node p children rest =>
    if p.isRendered then
      .node (p.withRendered base) (place (base + 1) children)
        (place (base + 1 + renderedSize children) rest)
    else .node p children (place base rest)

/-- The traces of rendering, in preorder. -/
def traces (lookup : Lookup) (missing : MissingKey) (t : Template) : List Trace :=
  t.preorder.flatMap (Part.traces lookup missing)

/-- The first part at the top that has a node. -/
def firstRendered? : Template → Option Part
  | .nil => none
  | .node p _ rest => if p.isRendered then some p else firstRendered? rest

/-- Gives the first part at the top that has a node this handle. -/
def placeFirst (node : NodeId) : Template → Template
  | .nil => .nil
  | .node p children rest =>
    if p.isRendered then .node (p.withRendered node) children rest
    else .node p children (placeFirst node rest)

/-- **The outcome of rendering.** -/
structure Rendered (κ : Type) where
  document : Document κ
  template : Template
  traces : List Trace
  fault : Option Fault

/-- Whether a node may get new children. -/
def canHold (d : Document κ) (container : NodeId) : Bool :=
  (d.nodes[container]?).any (·.content.isContainer)

/-- Rendering that fails at the first new node. -/
def renderFirst (context : RenderContext κ) (d : Document κ) (container : NodeId) (t : Template) :
    Rendered κ :=
  match t.firstRendered? with
  | none => ⟨d, t, [], none⟩
  | some p =>
    let made := (p.seed? context).elim d fun seed => d.pushPlaced ⟨seed, none, []⟩
    ⟨made, t.placeFirst d.size, p.traces context.lookup context.missing,
      match made.append container d.size with
      | .ok _ => none
      | .error f => some f⟩

/-- **Renders a template** to the end of a node's children. -/
def materialize (context : RenderContext κ) (d : Document κ) (container : NodeId) (t : Template) :
    Rendered κ :=
  if canHold d container then
    ⟨d.plant container (t.seeds context), t.place d.size,
      t.traces context.lookup context.missing, none⟩
  else renderFirst context d container t

/-- **Renders a template in the place of a node's children.** The new nodes are made in a fragment
first; the fragment stays behind, empty. -/
def mount (context : RenderContext κ) (d : Document κ) (root : NodeId) (t : Template) :
    Rendered κ :=
  let fragment := d.size
  let rendered := materialize context (d.push .fragment) fragment t
  match rendered.document.clear root with
  | .error f => { rendered with fault := some f }
  | .ok cleared =>
    match cleared.append root fragment with
    | .error f => { rendered with document := cleared, fault := some f }
    | .ok document => { rendered with document }

end Template

end BoundView
