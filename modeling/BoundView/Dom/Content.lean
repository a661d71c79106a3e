import BoundView.Text.Basic

/-!
# What a node holds

Elements have a lower-case tag, attributes in order and, once it is assigned, a live value; texts
and comments hold characters; the document node and fragments hold nothing but children.
-/

namespace BoundView.Dom

/-- **An attribute.** -/
structure Attribute where
  name : String
  value : String
  deriving DecidableEq, Repr, Inhabited

/-- **Attributes in order.** -/
abbrev Attributes := List Attribute

namespace Attributes

/-- The value of the first attribute of this name. -/
def get? (attributes : Attributes) (name : String) : Option String :=
  (attributes.find? (·.name == name)).map Attribute.value

/-- Gives the first attribute of this name the value; a new name is added at the end. -/
def set (attributes : Attributes) (name value : String) : Attributes :=
  match attributes with
  | [] => [⟨name, value⟩]
  | a :: rest => if a.name = name then ⟨name, value⟩ :: rest else a :: set rest name value

/-- Drops the attributes of this name. -/
def remove (attributes : Attributes) (name : String) : Attributes :=
  attributes.filter (·.name != name)

/-- Adds an attribute unless its name is empty or there already. -/
def addNew (attributes : Attributes) (name value : String) : Attributes :=
  if name.isEmpty || (attributes.get? name).isSome then attributes else attributes ++ [⟨name, value⟩]

/-- The names in order. -/
def names (attributes : Attributes) : List String := attributes.map Attribute.name

theorem get?_eq_none_iff {attributes : Attributes} {name : String} :
    attributes.get? name = none ↔ name ∉ attributes.names := by
  simp [get?, names, List.find?_eq_none]

end Attributes

/-- **An element** apart from its place in the tree. -/
structure Element where
  tag : String
  attributes : Attributes
  /-- The live value; `none` until it is assigned. -/
  value : Option String
  deriving DecidableEq, Repr, Inhabited

namespace Element

/-- A new element; tags are kept in lower case. -/
def ofTag (tag : String) : Element := ⟨Text.lowercase tag, [], none⟩

/-- The live value, or the `value` attribute until one is assigned. -/
def currentValue? (e : Element) : Option String :=
  match e.value with
  | some value => some value
  | none => e.attributes.get? "value"

end Element

/-- **What a node holds.** -/
inductive Content where
  | element (e : Element)
  | text (data : String)
  | comment (data : String)
  | document
  | fragment
  deriving DecidableEq, Repr, Inhabited

namespace Content

/-- Whether a node with this content may have children. -/
def isContainer : Content → Bool
  | element _ | document | fragment => true
  | text _ | comment _ => false

/-- The element, if this is one. -/
def element? : Content → Option Element
  | element e => some e
  | _ => none

/-- The lower-case tag of an element. -/
def tag? (c : Content) : Option String := c.element?.map Element.tag

/-- The characters of a text or a comment. -/
def data? : Content → Option String
  | text data | comment data => some data
  | _ => none

/-- The attributes of an element; none for the rest. -/
def attributes : Content → Attributes
  | element e => e.attributes
  | _ => []

/-- The number by which browsers know the kind of a node. -/
def kind : Content → Nat
  | element _ => 1
  | text _ => 3
  | comment _ => 8
  | document => 9
  | fragment => 11

/-- The name by which browsers know a node. -/
def name : Content → String
  | element e => Text.uppercase e.tag
  | text _ => "#text"
  | comment _ => "#comment"
  | document => "#document"
  | fragment => "#document-fragment"

/-- Replaces the characters of a text or a comment. -/
def withData (data : String) : Content → Content
  | text _ => text data
  | comment _ => comment data
  | c => c

/-- Changes the element, if this is one. -/
def mapElement (f : Element → Element) : Content → Content
  | element e => element (f e)
  | c => c

end Content

end BoundView.Dom
