import BoundView.Dom.Edit
import BoundView.Markup.Parse
import BoundView.Markup.Render

/-!
# Documents from markup, and markup from documents

Parsing makes a fragment first and then the nodes of the source in preorder. Nodes made before a
parse failed stay in the document, attached to nothing but that fragment.
-/

namespace BoundView.Dom

open BoundView.Markup (Parsed Nodes)

namespace Document

variable {κ : Type} (d : Document κ)

/-- Makes a fragment with the given nodes; it is the first of the nodes made. -/
def graft (nodes : Nodes) : Document κ := (d.push .fragment).plant d.size (nodes.map Seed.plain)

/-- Makes what a parse has built, in a fragment of its own. -/
def build (parsed : Parsed) : Document κ :=
  let grafted := d.graft parsed.nodes
  match parsed.orphan with
  | some element => grafted.push (.element element)
  | none => grafted

/-- **Parses markup** into a fragment that is nobody's child. The document is the one after the
parse, whether it succeeded or not. -/
def parseFragment (source : String) : Except Markup.Error NodeId × Document κ :=
  let parsed := Markup.parse source.toList
  (match parsed.error with
    | some e => .error e
    | none => .ok d.size,
    d.build parsed)

/-- **A new document** with the nodes of a source under its root. -/
def parse (source : String) : Except Markup.Error (Document κ) :=
  match (empty : Document κ).parseFragment source with
  | (.error e, _) => .error e
  | (.ok fragment, d) =>
    match d.append root fragment with
    | .ok d => .ok d
    | .error _ => .ok d

/-- The result of an edit that parses: a fault, a parse error, or success. -/
abbrev MarkupResult := Except Fault (Except Markup.Error Unit)

/-- **Parses markup and appends its nodes** to a node. -/
def appendMarkup (parent : NodeId) (source : String) : MarkupResult × Document κ :=
  match d.parseFragment source with
  | (.error e, d) => (.ok (.error e), d)
  | (.ok fragment, d) =>
    match d.append parent fragment with
    | .error f => (.error f, d)
    | .ok d => (.ok (.ok ()), d)

/-- **Parses markup and puts its nodes in the place** of a node's children. -/
def setInnerHtml (id : NodeId) (source : String) : MarkupResult × Document κ :=
  match d.parseFragment source with
  | (.error e, d) => (.ok (.error e), d)
  | (.ok fragment, d) =>
    match d.clear id with
    | .error f => (.error f, d)
    | .ok d =>
      match d.append id fragment with
      | .error f => (.error f, d)
      | .ok d => (.ok (.ok ()), d)

/-- **The markup of the children** of a node. -/
def innerHtml (id : NodeId) : Except Fault String :=
  (d.node id).map fun n =>
    Markup.rendered (Markup.holdsVerbatim n.content) (d.contents n.children)

/-- **The markup of a node.** -/
def outerHtml (id : NodeId) : Except Fault String :=
  (d.node id).map fun n =>
    let verbatim := n.parent.any fun p => Markup.holdsVerbatim (d.content p)
    Markup.rendered verbatim (d.contents [id])

end Document

end BoundView.Dom
