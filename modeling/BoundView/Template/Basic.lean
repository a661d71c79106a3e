import BoundView.Dom.Traverse
import BoundView.Interpolation.Marker
import BoundView.Markup.Tag

/-!
# Templates

A template is the compiled form of the nodes that a component is rendered from: elements with all
their attributes, texts with their markers, and comments. Each element and text remembers the node
that was last rendered from it.

An attribute whose name begins with `v-` is a directive, one that begins with `@` names a method
for the event type behind the sign, every other one is a plain attribute. A `v-model` on an element
that takes input binds the element's value to the key it names.
-/

namespace BoundView

open BoundView.Dom (Attribute Attributes Content NodeId)

/-- **What an attribute is for.** -/
inductive AttributeClass where
  /-- A directive, by its full name. -/
  | directive (name : String)
  /-- The method for events of a type. -/
  | event (type : String)
  /-- A plain attribute. -/
  | plain (name : String)
  deriving DecidableEq, Repr

/-- **The class of an attribute**, by its name. -/
def AttributeClass.ofName (name : String) : AttributeClass :=
  match name.toList with
  | 'v' :: '-' :: _ => .directive name
  | '@' :: type => .event (String.ofList type)
  | _ => .plain name

/-- **One node of a template.** -/
inductive Part where
  | element (tag : String) (attributes : Attributes) (rendered : Option NodeId)
  | text (raw : String) (rendered : Option NodeId)
  | comment (raw : String)
  deriving DecidableEq, Repr, Inhabited

/-- **A template.** -/
abbrev Template := Forest Part

namespace Part

/-- The attributes of an element; none for the rest. -/
def attributes : Part → Attributes
  | element _ attributes _ => attributes
  | _ => []

/-- The node last rendered from this part. -/
def rendered : Part → Option NodeId
  | element _ _ rendered | text _ rendered => rendered
  | comment _ => none

/-- The attributes that are copied onto the rendered element, in order. -/
def plain (p : Part) : List (String × String) :=
  p.attributes.filterMap fun a =>
    match AttributeClass.ofName a.name with
    | .plain name => some (name, a.value)
    | _ => none

/-- The directives, in order. -/
def directives (p : Part) : List (String × String) :=
  p.attributes.filterMap fun a =>
    match AttributeClass.ofName a.name with
    | .directive name => some (name, a.value)
    | _ => none

/-- **Event types with the methods they name**, in order, as written. -/
def events (p : Part) : List (String × String) :=
  p.attributes.filterMap fun a =>
    match AttributeClass.ofName a.name with
    | .event type => some (type, a.value)
    | _ => none

/-- **The key that an element's value is bound to**, if its tag takes input. -/
def modelKey? : Part → Option String
  | element tag attributes _ =>
    if Markup.isInput tag then (attributes.get? "v-model").map Text.trimmed else none
  | _ => none

/-- The keys of a text's markers. -/
def keys : Part → List String
  | text raw _ => Interpolation.keys raw
  | _ => []

/-- Whether rendering makes a node for this part. -/
def isRendered : Part → Bool
  | comment _ => false
  | _ => true

/-- The same part, rendered as this node. -/
def withRendered (node : NodeId) : Part → Part
  | element tag attributes _ => element tag attributes (some node)
  | text raw _ => text raw (some node)
  | comment raw => comment raw

end Part

namespace Template

/-- **Compiles contents.** Blank texts, fragments and document nodes are left out, with all that is
under them. -/
def ofContents : Forest Content → Template
  | .nil => .nil
  | .node (.element e) children rest =>
    .node (.element e.tag e.attributes none) (ofContents children) (ofContents rest)
  | .node (.text data) _ rest =>
    if (Text.trim data.toList).isEmpty then ofContents rest
    else .node (.text data none) .nil (ofContents rest)
  | .node (.comment data) _ rest => .node (.comment data) .nil (ofContents rest)
  | .node .document _ rest | .node .fragment _ rest => ofContents rest

/-- The nodes that the parts were last rendered as, in preorder. -/
def handles (t : Template) : List NodeId := t.preorder.filterMap Part.rendered

end Template

end BoundView
