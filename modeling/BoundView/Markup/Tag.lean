/-!
# Kinds of tags

Four short lists of lower-case tag names say which elements never have content, which keep their
content as one text, which of those write that text without escaping, and which hold a value that
a person edits.
-/

namespace BoundView.Markup

/-- **Void** elements have no content and no closing tag. -/
def voidTags : List String :=
  ["area", "base", "br", "col", "embed", "hr", "img", "input", "link", "meta", "source", "track",
    "wbr"]

/-- **Raw** elements hold one text, in which no tag but their own closing tag is recognized. -/
def rawTags : List String := ["script", "style", "textarea"]

/-- **Verbatim** elements hold a text without references. -/
def verbatimTags : List String := ["script", "style"]

/-- **Input** elements hold a value that a person edits. -/
def inputTags : List String := ["input", "textarea", "select"]

/-- Whether a tag is void. -/
def isVoid (tag : String) : Bool := voidTags.contains tag

/-- Whether a tag is raw. -/
def isRaw (tag : String) : Bool := rawTags.contains tag

/-- Whether a tag is verbatim. -/
def isVerbatim (tag : String) : Bool := verbatimTags.contains tag

/-- Whether a tag takes input. -/
def isInput (tag : String) : Bool := inputTags.contains tag

/-- A verbatim tag is raw. -/
theorem isRaw_of_isVerbatim {tag : String} (h : isVerbatim tag = true) : isRaw tag = true := by
  simp only [isVerbatim, verbatimTags, List.contains_iff_mem, List.mem_cons, List.not_mem_nil,
    or_false] at h
  rcases h with rfl | rfl <;> rfl

end BoundView.Markup
