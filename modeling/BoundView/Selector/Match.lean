import BoundView.Dom.Traverse
import BoundView.Selector.Basic

/-!
# Matching and queries

A node matches a selector when it matches the last word and the nodes above it, taken innermost
first, match the other words from the last to the first, each word at the nearest node that does.
Queries look at the nodes below the document node in preorder.
-/

namespace BoundView

open BoundView.Dom (Content Document Fault NodeId)

/-- **Whether a node's content satisfies one word.** -/
def Compound.matchesContent (compound : Compound) : Content → Bool
  | .element e =>
    compound.tag.all (· == e.tag) &&
      compound.id.all (fun id => e.attributes.get? "id" == some id) &&
      let present := (Text.words ((e.attributes.get? "class").getD "").toList).map String.ofList
      compound.classes.all present.contains
  | _ => false

namespace Selector

/-- Whether words, innermost first, are met in this order by contents above a node, innermost
first. -/
def climbs : List Compound → List Content → Bool
  | [], _ => true
  | _ :: _, [] => false
  | compound :: compounds, content :: above =>
    if compound.matchesContent content then climbs compounds above
    else climbs (compound :: compounds) above

/-- Whether a content with the given contents above it, innermost first, satisfies the words. -/
def matchesAt (selector : Selector) (content : Content) (above : List Content) : Bool :=
  match selector.compounds.reverse with
  | [] => false
  | last :: others => last.matchesContent content && climbs others above

variable {κ : Type} (d : Document κ)

/-- Whether a node of a document matches; a node that is not there does not. -/
def holdsAt (selector : Selector) (id : NodeId) : Bool :=
  selector.matchesAt (d.content id) ((d.ancestors id).map d.content)

/-- **Whether a node matches a selector.** -/
def matchesNode (selector : Selector) (id : NodeId) : Except Fault Bool :=
  (d.node id).map fun _ => selector.holdsAt d id

/-- **All matching nodes**, in preorder. -/
def queryAll (selector : Selector) : List NodeId :=
  (d.descendants Document.root).filter (selector.holdsAt d)

/-- **The first matching node.** -/
def query (selector : Selector) : Option NodeId :=
  (d.descendants Document.root).find? (selector.holdsAt d)

/-- **The first node with this `id` attribute.** -/
def byId (id : String) : Option NodeId :=
  (d.descendants Document.root).find? fun node => (d.content node).attributes.get? "id" == some id

end Selector

end BoundView
