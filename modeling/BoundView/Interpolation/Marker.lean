import BoundView.Text.Basic

/-!
# Interpolation markers

A marker is two opening braces, a run of characters that are no braces, and two closing braces.
Its **key** is the run without the blanks at its ends. Markers do not nest: where two opening
braces do not begin a marker, the first of them is plain text and reading goes on at the second.

`pieces` reads a text as a list of plain characters and markers. Main statements:
`flatMap_source_pieces` (the sources of the pieces are the text) and `marker?_eq_some_iff` (a
marker is read exactly where its form stands).
-/

namespace BoundView.Interpolation

open BoundView.Text

/-- Whether a character is an opening or a closing brace. -/
def isBrace (c : Char) : Bool := c == '{' || c == '}'

/-- **A piece of a text.** -/
inductive Piece where
  | char (c : Char)
  /-- A marker with the run between its braces. -/
  | marker (inner : List Char)
  deriving DecidableEq, Repr

/-- The text that a piece was read from. -/
def Piece.source : Piece → List Char
  | .char c => [c]
  | .marker inner => '{' :: '{' :: inner ++ ['}', '}']

/-- The run of a marker at the start of a text, and what follows the marker. -/
def marker? : List Char → Option (List Char × List Char)
  | '{' :: '{' :: body =>
    match body.dropWhile (!isBrace ·) with
    | '}' :: '}' :: rest => some (body.takeWhile (!isBrace ·), rest)
    | _ => none
  | _ => none

/-- What `marker?` reads is the source of a marker. -/
theorem eq_source_of_marker? {cs inner rest : List Char} (h : marker? cs = some (inner, rest)) :
    cs = (Piece.marker inner).source ++ rest ∧ ∀ c ∈ inner, isBrace c = false := by
  unfold marker? at h
  split at h
  · rename_i body
    split at h
    · rename_i tail hdrop
      cases h
      refine ⟨?_, fun c hc => ?_⟩
      · have := List.takeWhile_append_dropWhile (p := fun c => !isBrace c) (l := body)
        rw [hdrop] at this
        simp [Piece.source, this]
      · simpa using List.all_eq_true.mp List.all_takeWhile c hc
    · cases h
  · cases h

/-- **A marker is read exactly where its form stands.** -/
theorem marker?_eq_some_iff {cs inner rest : List Char} :
    marker? cs = some (inner, rest) ↔
      cs = (Piece.marker inner).source ++ rest ∧ ∀ c ∈ inner, isBrace c = false := by
  refine ⟨eq_source_of_marker?, ?_⟩
  rintro ⟨rfl, hinner⟩
  have hkeep : ∀ c ∈ inner, (!isBrace c) = true := by simpa using hinner
  have htake : (inner ++ '}' :: '}' :: rest).takeWhile (!isBrace ·) = inner := by
    rw [List.takeWhile_append_of_pos hkeep]
    simp [isBrace]
  have hdrop : (inner ++ '}' :: '}' :: rest).dropWhile (!isBrace ·) = '}' :: '}' :: rest := by
    rw [List.dropWhile_append_of_pos hkeep]
    simp [isBrace]
  simp [marker?, Piece.source, htake, hdrop]

theorem length_lt_of_marker? {cs inner rest : List Char} (h : marker? cs = some (inner, rest)) :
    rest.length < cs.length := by
  rw [(eq_source_of_marker? h).1]
  simp [Piece.source]
  omega

/-- **The pieces of a text**, from the left. -/
def pieces (cs : List Char) : List Piece :=
  match h : marker? cs with
  | some (inner, rest) =>
    have := length_lt_of_marker? h
    .marker inner :: pieces rest
  | none =>
    match cs with
    | [] => []
    | c :: rest => .char c :: pieces rest
termination_by cs.length

/-- Nothing is lost: the sources of the pieces are the text. -/
theorem flatMap_source_pieces (cs : List Char) : (pieces cs).flatMap Piece.source = cs := by
  fun_induction pieces cs with
  | case1 cs inner rest h _ ih => simp [ih, (eq_source_of_marker? h).1]
  | case2 => simp
  | case3 c rest _ ih => simp [Piece.source, ih]

/-- **A marker of a text**, with the bytes that it covers. -/
structure Marker where
  /-- The byte at which the opening braces stand. -/
  start : Nat
  /-- The byte behind the closing braces. -/
  stop : Nat
  /-- The run between the braces. -/
  inner : String
  deriving DecidableEq, Repr

/-- The key that a run names. -/
def keyOf (inner : List Char) : String := String.ofList (trim inner)

/-- The key that a marker names. -/
def Marker.key (marker : Marker) : String := keyOf marker.inner.toList

/-- The markers of a list of pieces that begins at the given byte. -/
def markersFrom : Nat → List Piece → List Marker
  | _, [] => []
  | start, .char c :: rest => markersFrom (start + c.utf8Size) rest
  | start, .marker inner :: rest =>
    let stop := start + bytes (Piece.marker inner).source
    ⟨start, stop, String.ofList inner⟩ :: markersFrom stop rest

/-- **The markers of a text**, from the left. -/
def scan (text : String) : List Marker := markersFrom 0 (pieces text.toList)

/-- Whether a text has a marker. -/
def hasMarkers (text : String) : Bool := !(scan text).isEmpty

/-- **The keys of a text**: one for each marker, in order. -/
def keys (text : String) : List String := (scan text).map Marker.key

/-- The keys that a list of pieces names. -/
def keysOf (ps : List Piece) : List String :=
  ps.filterMap fun
    | .char _ => none
    | .marker inner => some (keyOf inner)

theorem map_key_markersFrom (start : Nat) (ps : List Piece) :
    (markersFrom start ps).map Marker.key = keysOf ps := by
  induction ps generalizing start with
  | nil => rfl
  | cons p ps ih => cases p <;> simp [markersFrom, keysOf, Marker.key, ih]

theorem keys_eq (text : String) : keys text = keysOf (pieces text.toList) :=
  map_key_markersFrom 0 _

end BoundView.Interpolation
