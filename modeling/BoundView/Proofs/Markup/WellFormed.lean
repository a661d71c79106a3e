import BoundView.Forest
import BoundView.Markup.Tag
import BoundView.Markup.Token
import Mathlib.Tactic.MkIffOfInductiveProp

/-!
# Forests that markup can write

Markup has no way to write some trees: two texts side by side come back as one, a comment ends at
its first `-->`, a void element has no place for children. `WellFormed` names what is left: forests
of elements, texts and comments that their own markup determines.

Names are those of the language's own lower-case form. A verbatim element holds no text in which its
closing tag begins, in any case of letters.
-/

namespace BoundView.Markup

open BoundView.Dom (Attribute Content Element)

/-- The letters of a tag in lower case: `a` to `z`, digits, `:` and `-`. -/
def isTagLetter (c : Char) : Bool := c.isLower || c.isDigit || c == ':' || c == '-'

/-- **A tag that markup can write** begins with a letter of lower case. -/
@[mk_iff]
structure IsTag (tag : String) : Prop where
  first : tag.toList.head?.any Char.isLower = true
  letters : tag.toList.all isTagLetter = true

/-- **The name of a tag in any case**: a letter, and then letters, digits, `:` and `-`. -/
@[mk_iff]
structure IsTagName (name : String) : Prop where
  first : name.toList.head?.any Char.isAlpha = true
  letters : name.toList.all isTagNameChar = true

/-- **A name of an attribute that markup can write**, free of ASCII upper case, blanks, `=`, `>` and
`/`. -/
@[mk_iff]
structure IsAttributeName (name : String) : Prop where
  nonempty : name.toList ≠ []
  letters : name.toList.all isAttributeNameChar = true
  lower : name.toList.any Char.isUpper = false

/-- **What a raw element can hold**: one text or nothing. -/
def RawContent (tag : String) : Forest Content → Prop
  | .nil => True
  | .node (.text data) .nil .nil =>
    isVerbatim tag = true → ¬ '<' :: '/' :: tag.toList <:+: Text.lower data.toList
  | _ => False

/-- **An element that markup can write** with the given children. -/
@[mk_iff]
structure IsElement (e : Element) (children : Forest Content) : Prop where
  tag : IsTag e.tag
  names : ∀ a ∈ e.attributes, IsAttributeName a.name
  distinct : e.attributes.names.Nodup
  void : isVoid e.tag = true → children = .nil
  raw : isRaw e.tag = true → RawContent e.tag children

/-- Whether the first tree of a forest is a text. -/
def beginsWithText : Forest Content → Bool
  | .node (.text _) _ _ => true
  | _ => false

/-- **A forest that markup can write.** -/
def WellFormed : Forest Content → Prop
  | .nil => True
  | .node (.element e) children rest => IsElement e children ∧ WellFormed children ∧ WellFormed rest
  | .node (.text data) children rest =>
    data.toList ≠ [] ∧ children = .nil ∧ beginsWithText rest = false ∧ WellFormed rest
  | .node (.comment data) children rest =>
    ¬ ['-', '-', '>'] <:+: data.toList ∧ children = .nil ∧ WellFormed rest
  | .node .document _ _ | .node .fragment _ _ => False

instance (tag : String) : Decidable (IsTag tag) := decidable_of_iff' _ (isTag_iff tag)

instance (name : String) : Decidable (IsTagName name) := decidable_of_iff' _ (isTagName_iff name)

instance (name : String) : Decidable (IsAttributeName name) :=
  decidable_of_iff' _ (isAttributeName_iff name)

instance (tag : String) : (f : Forest Content) → Decidable (RawContent tag f)
  | .nil => .isTrue trivial
  | .node (.text data) .nil .nil =>
    inferInstanceAs (Decidable (isVerbatim tag = true →
      ¬ '<' :: '/' :: tag.toList <:+: Text.lower data.toList))
  | .node (.text _) .nil (.node _ _ _) | .node (.text _) (.node _ _ _) _ | .node (.element _) _ _
  | .node (.comment _) _ _ | .node .document _ _ | .node .fragment _ _ => .isFalse id

instance (e : Element) (children : Forest Content) : Decidable (IsElement e children) :=
  decidable_of_iff' _ (isElement_iff e children)

/-- Whether a forest is well formed can be computed. -/
instance decidableWellFormed : (f : Forest Content) → Decidable (WellFormed f)
  | .nil => .isTrue trivial
  | .node (.element e) children rest =>
    have := decidableWellFormed children
    have := decidableWellFormed rest
    inferInstanceAs (Decidable (IsElement e children ∧ WellFormed children ∧ WellFormed rest))
  | .node (.text data) children rest =>
    have := decidableWellFormed rest
    inferInstanceAs (Decidable (data.toList ≠ [] ∧ children = .nil ∧ beginsWithText rest = false ∧
      WellFormed rest))
  | .node (.comment data) children rest =>
    have := decidableWellFormed rest
    inferInstanceAs (Decidable (¬ ['-', '-', '>'] <:+: data.toList ∧ children = .nil ∧
      WellFormed rest))
  | .node .document _ _ | .node .fragment _ _ => .isFalse id

example : WellFormed (.node (.element ⟨"p", [⟨"class", "a b"⟩], none⟩) (.single (.text "hi")) .nil) := by
  decide

example : ¬ WellFormed (.node (.text "a") .nil (.single (.text "b"))) := by
  decide

end BoundView.Markup
