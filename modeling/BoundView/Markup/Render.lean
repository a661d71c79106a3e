import BoundView.Forest
import BoundView.Dom.Content
import BoundView.Markup.Entity
import BoundView.Markup.Tag

/-!
# Rendering: a forest as markup

Nodes are written in preorder, attributes in their order. Text is escaped unless its parent is a
verbatim element; an attribute without a value is written as its name; a void element has neither
content nor a closing tag. Live values are no part of markup, and the document node and fragments
are written as their children.

Main statement: `renderOnto_eq`, rendering in front of a tail is rendering, then the tail.
-/

namespace BoundView.Markup

open BoundView.Dom (Attribute Attributes Content Element)

/-- One attribute behind its blank. -/
def renderAttribute (a : Attribute) : List Char :=
  ' ' :: a.name.toList ++
    if a.value.isEmpty then [] else '=' :: '"' :: escape a.value.toList ++ ['"']

/-- An opening tag. -/
def renderOpening (e : Element) : List Char :=
  '<' :: e.tag.toList ++ e.attributes.flatMap renderAttribute ++ ['>']

/-- A closing tag. -/
def renderClosing (tag : String) : List Char := '<' :: '/' :: tag.toList ++ ['>']

/-- Whether text right under a node with this content is verbatim. -/
def holdsVerbatim : Content → Bool
  | .element e => isVerbatim e.tag
  | _ => false

/-- A node with this content whose children are written as `inner`. -/
def renderNode (verbatim : Bool) (content : Content) (inner : List Char) : List Char :=
  match content with
  | .text data => if verbatim then data.toList else escape data.toList
  | .comment data => "<!--".toList ++ data.toList ++ "-->".toList
  | .element e =>
    renderOpening e ++ if isVoid e.tag then [] else inner ++ renderClosing e.tag
  | .document | .fragment => inner

/-- **The markup of a forest**; `verbatim` says whether its top texts stand in a verbatim
element. -/
def render (verbatim : Bool) : Forest Content → List Char
  | .nil => []
  | .node content children rest =>
    renderNode verbatim content (render (holdsVerbatim content) children) ++ render verbatim rest

/-- **The markup of a forest in front of a tail.** No part of the markup is built twice, however deep
the forest is. -/
def renderOnto (verbatim : Bool) (forest : Forest Content) (tail : List Char) : List Char :=
  match forest with
  | .nil => tail
  | .node content children rest =>
    let tail := renderOnto verbatim rest tail
    match content with
    | .text data => (if verbatim then data.toList else escape data.toList) ++ tail
    | .comment data => "<!--".toList ++ (data.toList ++ ("-->".toList ++ tail))
    | .element e =>
      renderOpening e ++
        if isVoid e.tag then tail
        else renderOnto (isVerbatim e.tag) children (renderClosing e.tag ++ tail)
    | .document | .fragment => renderOnto false children tail

theorem renderOnto_eq (verbatim : Bool) (forest : Forest Content) (tail : List Char) :
    renderOnto verbatim forest tail = render verbatim forest ++ tail := by
  induction forest generalizing verbatim tail with
  | nil => rfl
  | node content children rest ihc ihr =>
    cases content with
    | element e =>
      simp only [renderOnto, render, renderNode, holdsVerbatim, ihc, ihr]
      split <;> simp
    | text data => simp [renderOnto, render, renderNode, ihr]
    | comment data => simp [renderOnto, render, renderNode, ihr]
    | document => simp [renderOnto, render, renderNode, holdsVerbatim, ihc, ihr]
    | fragment => simp [renderOnto, render, renderNode, holdsVerbatim, ihc, ihr]

/-- `String` form of `render`. -/
def rendered (verbatim : Bool) (forest : Forest Content) : String :=
  String.ofList (renderOnto verbatim forest [])

theorem toList_rendered (verbatim : Bool) (forest : Forest Content) :
    (rendered verbatim forest).toList = render verbatim forest := by
  simp [rendered, renderOnto_eq]

end BoundView.Markup
