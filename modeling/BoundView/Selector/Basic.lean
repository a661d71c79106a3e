import BoundView.Text.Basic
import BoundView.Text.Class

/-!
# Selectors

A selector is a list of words, outermost first. Each word is a compound: an optional tag or `*`,
then parts that begin with `#` for an identifier or `.` for a class. Names are made of
alphanumeric characters, `-` and `_`. Of several identifiers in one word the last counts.
-/

namespace BoundView

/-- **What one word asks of an element.** -/
structure Compound where
  tag : Option String
  id : Option String
  classes : List String
  deriving DecidableEq, Repr

/-- Adds a part: an identifier replaces the former one, a class comes after the former ones. -/
def Compound.addPart (c : Compound) (marker : Char) (name : String) : Compound :=
  if marker = '#' then { c with id := some name } else { c with classes := c.classes ++ [name] }

/-- **A selector**: its words, outermost first. -/
structure Selector where
  compounds : List Compound
  deriving DecidableEq, Repr

namespace Selector

/-- **Why a text is no selector.** -/
inductive Error where
  | empty
  /-- A character that can begin no part. -/
  | unsupported (selector : String) (char : Char)
  /-- A `#` or `.` without a name behind it. -/
  | missingName (selector : String) (marker : Char)
  deriving DecidableEq, Repr

/-- The text of an error. -/
def Error.message : Error → String
  | .empty => "selector is empty"
  | .unsupported selector char =>
    "unsupported character `" ++ char.toString ++ "` in selector `" ++ selector ++ "`"
  | .missingName selector marker =>
    "empty name after `" ++ marker.toString ++ "` in selector `" ++ selector ++ "`"

/-- The characters of names. -/
def isNameChar (c : Char) : Bool := Text.isAlphanumeric c || c == '-' || c == '_'

/-- The characters that a word may have before its first part. -/
def isTagChar (c : Char) : Bool := isNameChar c || c == '*'

/-- The tag of a word: what stands before its parts, in lower case; none for `*` and for nothing. -/
def tagOf (front : List Char) : Option String :=
  if front = [] ∨ front = ['*'] then none else some (String.ofList (Text.lower front))

/-- **The parts of a word** from the given rest on. -/
def parseParts (selector : String) (compound : Compound) (cs : List Char) :
    Except Error Compound :=
  match cs with
  | [] => .ok compound
  | marker :: body =>
    if marker ≠ '#' ∧ marker ≠ '.' then .error (.unsupported selector marker)
    else
      let name := body.takeWhile isNameChar
      if name = [] then .error (.missingName selector marker)
      else
        have : (body.dropWhile isNameChar).length < body.length + 1 :=
          Nat.lt_succ_of_le (List.dropWhile_sublist isNameChar).length_le
        parseParts selector (compound.addPart marker (String.ofList name))
          (body.dropWhile isNameChar)
termination_by cs.length

/-- One word of a selector. -/
def parseWord (selector : String) (word : List Char) : Except Error Compound :=
  parseParts selector ⟨tagOf (word.takeWhile isTagChar), none, []⟩ (word.dropWhile isTagChar)

/-- Words from the left, up to the first that is refused. -/
def parseWords (selector : String) : List (List Char) → Except Error (List Compound)
  | [] => .ok []
  | word :: words =>
    match parseWord selector word with
    | .error e => .error e
    | .ok compound => (parseWords selector words).map (compound :: ·)

/-- **Reads a selector.** -/
def parse (selector : String) : Except Error Selector :=
  match parseWords selector (Text.words selector.toList) with
  | .error e => .error e
  | .ok [] => .error .empty
  | .ok compounds => .ok ⟨compounds⟩

end Selector

end BoundView
