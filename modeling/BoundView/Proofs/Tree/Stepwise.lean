import BoundView.Dom.Markup
import BoundView.Proofs.Markup.Scanning

/-!
# Parsing into a document, step by step

A parse that works on the document itself: it keeps a byte offset into the source and the nodes of the
open elements, makes each node when it meets it, sets each attribute when it has read it, and appends
each node to the innermost open element. It is refused (`none`) by a slice that is out of bounds or
inside a character, by an append that a document does not allow, and by a round of the main loop or of
the attribute loop that does not move forward to a place of the source.

Main definition: `Document.stepwise`. That it is never refused, and does what parsing to a forest and
grafting the forest does, is `Document.stepwise_eq`.
-/

namespace BoundView.Dom

open BoundView.Markup
open BoundView.Text (bytes find? from? headIs lower slice? startsWith trim)

/-- **A parse under way.** -/
structure Site (κ : Type) where
  document : Document κ
  /-- The offset of the place that has been read up to. -/
  pos : Nat
  /-- The open elements, innermost first: the node and the tag of each. -/
  stack : List (NodeId × String)

/-- What a parse leaves that stops at an error. -/
abbrev Stop (κ : Type) := Markup.Error × Document κ

namespace Site

variable {κ : Type} (source : List Char) (fragment : NodeId)

/-! ## Documents -/

/-- The node that new nodes come under: that of the innermost open element. -/
def current (s : Site κ) : NodeId :=
  match s.stack with
  | [] => fragment
  | (id, _) :: _ => id

/-- Appends a node; what a document does not allow refuses the parse. -/
def attach (d : Document κ) (parent child : NodeId) : Option (Document κ) :=
  (d.append parent child).toOption

/-- Makes a node and appends it to the innermost open element. -/
def add (s : Site κ) (content : Content) : Option (Document κ) :=
  attach (s.document.push content) (s.current fragment) s.document.size

/-- Sets an attribute that has a name and is not there yet. -/
def setNew (d : Document κ) (element : NodeId) (name value : String) : Option (Document κ) :=
  if name.isEmpty || ((d.content element).attributes.get? name).isSome then some d
  else (d.setAttribute element name value).toOption

/-! ## Constructs -/

/-- A text up to the next place where markup begins. -/
def text (s : Site κ) : Option (Except (Stop κ) (Site κ)) := do
  let rest ← from? source s.pos
  let first := (rest.head?.map Char.utf8Size).getD 1
  let stop ← Scan.textEnd source (s.pos + first)
  let raw ← slice? source s.pos stop
  let data ← Scan.decode raw
  let document ← s.add fragment (.text (String.ofList data))
  return .ok { s with document, pos := stop }

/-- A comment. -/
def comment (s : Site κ) : Option (Except (Stop κ) (Site κ)) := do
  let body ← from? source (s.pos + 4)
  match find? (startsWith ['-', '-', '>']) body with
  | none => return .error (.unterminatedComment s.pos, s.document)
  | some len =>
    let data ← slice? source (s.pos + 4) (s.pos + 4 + len)
    let document ← s.add fragment (.comment (String.ofList data))
    return .ok { s with document, pos := s.pos + 4 + len + 3 }

/-- A declaration, which leaves nothing. -/
def declaration (s : Site κ) : Option (Except (Stop κ) (Site κ)) := do
  let rest ← from? source s.pos
  match find? (startsWith ['>']) rest with
  | none => return .error (.unexpectedEnd s.pos, s.document)
  | some len => return .ok { s with pos := s.pos + len + 1 }

/-- A closing tag. -/
def closing (s : Site κ) : Option (Except (Stop κ) (Site κ)) := do
  let rest ← from? source s.pos
  match find? (startsWith ['>']) rest with
  | none => return .error (.unexpectedEnd s.pos, s.document)
  | some len =>
    let name ← slice? source (s.pos + 2) (s.pos + len)
    let found := String.ofList (lower (trim name))
    if isVoid found then return .ok { s with pos := s.pos + len + 1 }
    else
      match s.stack with
      | [] => return .error (.unexpectedClosing found s.pos, s.document)
      | (_, expected) :: stack =>
        if expected = found then return .ok { s with pos := s.pos + len + 1, stack }
        else return .error (.mismatchedClosing expected found s.pos, s.document)

/-- **One round of the attribute loop**: the document and the place go on, or the tag ends here, closing
itself or not. -/
def attributeRound (start : Nat) (element : NodeId) (s : Document κ × Nat) :
    Option ((Document κ × Nat) ⊕ Except (Stop κ) (Bool × Document κ × Nat)) := do
  let pos ← Scan.skipBlank source s.2
  let rest ← from? source pos
  if rest.isEmpty then return .inr (.error (.unexpectedEnd start, s.1))
  else if startsWith ['/', '>'] rest then
    let next ← Scan.forward? source s.2 (pos + 2)
    return .inr (.ok (true, s.1, next))
  else if startsWith ['>'] rest then
    let next ← Scan.forward? source s.2 (pos + 1)
    return .inr (.ok (false, s.1, next))
  else if startsWith ['/'] rest then
    let next ← Scan.forward? source s.2 (pos + 1)
    return .inl (s.1, next)
  else
    match ← Scan.attributeAt source pos with
    | .error e => return .inr (.error (e, s.1))
    | .ok (name, value, next) =>
      let document ← setNew s.1 element name (String.ofList value)
      let next ← Scan.forward? source s.2 next
      return .inl (document, next)

/-- **The attribute loop.** -/
def attributes (start : Nat) (element : NodeId) (document : Document κ) (pos : Nat) :
    Option (Except (Stop κ) (Bool × Document κ × Nat)) :=
  Scan.repeating (bytes source - ·.2) (attributeRound source start element) (document, pos)

/-- The text of a raw element that is already in its place; nothing for no characters. -/
def rawText (d : Document κ) (element : NodeId) (tag : String) (raw : List Char) :
    Option (Document κ) :=
  if raw.isEmpty then some d
  else
    (if tag = "textarea" then Scan.decode raw else some raw).bind fun data =>
      attach (d.push (.text (String.ofList data))) element d.size

/-- The content of a raw element, and its closing tag, which is looked for in lower case. -/
def raw (element : NodeId) (tag : String) (start : Nat) (s : Site κ) :
    Option (Except (Stop κ) (Site κ)) := do
  let body ← from? source s.pos
  match find? (startsWith ('<' :: '/' :: tag.toList)) (lower body) with
  | none => return .error (.unexpectedEnd start, s.document)
  | some len =>
    let raw ← slice? source s.pos (s.pos + len)
    let document ← rawText s.document element tag raw
    let rest ← from? source (s.pos + len)
    match find? (startsWith ['>']) rest with
    | none => return .error (.unexpectedEnd (s.pos + len), document)
    | some stop => return .ok { s with document, pos := s.pos + len + stop + 1 }

/-- An opening tag. Its element is made before its attributes are read, and appended behind them. -/
def opening (s : Site κ) : Option (Except (Stop κ) (Site κ)) := do
  let (name, pos) ← Scan.takeWhile source isTagNameChar (s.pos + 1)
  let tag := String.ofList (lower name)
  let element := s.document.size
  match ← attributes source s.pos element (s.document.push (.element (.ofTag tag))) pos with
  | .error stop => return .error stop
  | .ok (closed, document, pos) =>
    let document ← attach document (s.current fragment) element
    if closed || isVoid tag then return .ok { s with document, pos }
    else if isRaw tag then raw source element tag s.pos { s with document, pos }
    else return .ok ⟨document, pos, (element, tag) :: s.stack⟩

/-- The construct that begins here. -/
def construct (s : Site κ) : Option (Except (Stop κ) (Site κ)) := do
  let rest ← from? source s.pos
  if startsWith ['<', '!', '-', '-'] rest then comment source fragment s
  else if startsWith ['<', '/'] rest then closing source s
  else if startsWith ['<', '!'] rest then declaration source s
  else
    let markup ← Scan.startsMarkup rest
    if markup then opening source fragment s else text source fragment s

/-- **One round of the main loop.** -/
def round (s : Site κ) : Option (Site κ ⊕ Except (Stop κ) (Document κ)) :=
  if s.pos < bytes source then do
    match ← construct source fragment s with
    | .error stop => return .inr (.error stop)
    | .ok next =>
      let _ ← Scan.forward? source s.pos next.pos
      return .inl next
  else some (.inr (.ok s.document))

/-- **The main loop.** -/
def run (s : Site κ) : Option (Except (Stop κ) (Document κ)) :=
  Scan.repeating (bytes source - ·.pos) (round source fragment) s

end Site

/-- **Parses markup step by step** into a fragment that is nobody's child. -/
def Document.stepwise {κ : Type} (d : Document κ) (source : String) :
    Option (Except Markup.Error NodeId × Document κ) :=
  (Site.run source.toList d.size ⟨d.push .fragment, 0, []⟩).map fun
    | .ok e => (.ok d.size, e)
    | .error (error, e) => (.error error, e)

end BoundView.Dom
