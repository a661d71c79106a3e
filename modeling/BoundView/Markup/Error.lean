/-!
# Why markup is refused

Offsets are bytes of the source. Every offset is that of the `<` that begins the construct, but for
an attribute, where it is that of the opening quote.
-/

namespace BoundView.Markup

/-- **Why markup is refused.** -/
inductive Error where
  /-- The source ends inside a tag. -/
  | unexpectedEnd (offset : Nat)
  | unterminatedComment (offset : Nat)
  | unterminatedAttribute (name : String) (offset : Nat)
  /-- A closing tag that is not that of the innermost open element. -/
  | mismatchedClosing (expected found : String) (offset : Nat)
  /-- A closing tag while no element is open. -/
  | unexpectedClosing (found : String) (offset : Nat)
  deriving DecidableEq, Repr

namespace Error

/-- The offset of an error. -/
def offset : Error → Nat
  | unexpectedEnd offset | unterminatedComment offset | unterminatedAttribute _ offset
  | mismatchedClosing _ _ offset | unexpectedClosing _ offset => offset

/-- The text of an error. -/
def message : Error → String
  | unexpectedEnd offset => "unexpected end of input inside a tag starting at byte " ++ toString offset
  | unterminatedComment offset => "comment starting at byte " ++ toString offset ++ " is never closed"
  | unterminatedAttribute name offset =>
    "quoted value of attribute `" ++ name ++ "` starting at byte " ++ toString offset ++
      " is never closed"
  | mismatchedClosing expected found offset =>
    "closing tag `</" ++ found ++ ">` at byte " ++ toString offset ++ " does not match open `<" ++
      expected ++ ">`"
  | unexpectedClosing found offset =>
    "closing tag `</" ++ found ++ ">` at byte " ++ toString offset ++ " has no open element"

end Error

end BoundView.Markup
