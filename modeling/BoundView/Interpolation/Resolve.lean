import BoundView.Interpolation.Marker

/-!
# Resolving a text

Resolution replaces each marker of a text by what a lookup answers for its key, in one pass from
the left: an answer is put in as it is and never read again. A key without an answer is reported,
and its marker is replaced as the `MissingKey` policy says.

Main statement: `resolve_eq_resolveM`, the pure resolution is the effectful one without effects.
-/

namespace BoundView.Interpolation

open BoundView.Text

/-- **What stands for a marker whose key has no answer.** -/
inductive MissingKey where
  /-- Nothing. -/
  | empty
  /-- The word `undefined`. -/
  | undefined
  /-- The marker as written. -/
  | literal
  deriving DecidableEq, Repr, Inhabited

namespace MissingKey

/-- The name of a policy. -/
def name : MissingKey → String
  | .empty => "empty"
  | .undefined => "undefined"
  | .literal => "literal"

/-- The policy of exactly this name. -/
def ofName? (name : String) : Option MissingKey :=
  [empty, undefined, literal].find? (·.name == name)

/-- The policy that a person's spelling of a name means: blanks around it and case do not matter. -/
def read? (text : String) : Option MissingKey := ofName? (lowercase (trimmed text))

/-- What stands for the marker with this run. -/
def fill (policy : MissingKey) (inner : List Char) : List Char :=
  match policy with
  | .empty => []
  | .undefined => "undefined".toList
  | .literal => (Piece.marker inner).source

end MissingKey

/-- **A source of texts**: the text of a key, or `none` for a key that it does not know. -/
abbrev Lookup := String → Option String

/-- The lookup of a list of pairs in which the first pair of a key counts. -/
def Lookup.firstOf (pairs : List (String × String)) : Lookup := fun key => pairs.lookup key

/-- The lookup of a list of pairs in which the last pair of a key counts. -/
def Lookup.lastOf (pairs : List (String × String)) : Lookup := firstOf pairs.reverse

/-- **A resolved text** and the keys without an answer, in order. -/
structure Resolution where
  text : List Char
  missing : List String
  deriving DecidableEq, Repr

namespace Resolution

/-- Puts one more character in front. -/
def withChar (c : Char) (r : Resolution) : Resolution := { r with text := c :: r.text }

/-- Puts what stands for a marker in front. -/
def withMarker (policy : MissingKey) (inner : List Char) (answer : Option String) (r : Resolution) :
    Resolution :=
  match answer with
  | some value => { r with text := value.toList ++ r.text }
  | none => ⟨policy.fill inner ++ r.text, keyOf inner :: r.missing⟩

/-- Whether every key had an answer. -/
def isComplete (r : Resolution) : Bool := r.missing.isEmpty

end Resolution

/-- Resolves pieces from the left, asking for each marker's key as it comes. -/
def resolvePiecesM {m : Type → Type} [Monad m] (ask : String → m (Option String))
    (policy : MissingKey) : List Piece → m Resolution
  | [] => pure ⟨[], []⟩
  | .char c :: rest => do
    let r ← resolvePiecesM ask policy rest
    pure (r.withChar c)
  | .marker inner :: rest => do
    let answer ← ask (keyOf inner)
    let r ← resolvePiecesM ask policy rest
    pure (r.withMarker policy inner answer)

/-- **Resolution with a lookup that may have effects.** -/
def resolveM {m : Type → Type} [Monad m] (ask : String → m (Option String)) (policy : MissingKey)
    (text : String) : m Resolution :=
  resolvePiecesM ask policy (pieces text.toList)

/-- Resolves pieces with a pure lookup. -/
def resolvePieces (lookup : Lookup) (policy : MissingKey) : List Piece → Resolution
  | [] => ⟨[], []⟩
  | .char c :: rest => (resolvePieces lookup policy rest).withChar c
  | .marker inner :: rest =>
    (resolvePieces lookup policy rest).withMarker policy inner (lookup (keyOf inner))

/-- **Resolution**: every marker replaced, in one pass. -/
def resolve (lookup : Lookup) (policy : MissingKey) (text : String) : Resolution :=
  resolvePieces lookup policy (pieces text.toList)

/-- The text of a resolution. -/
def resolvedText (lookup : Lookup) (policy : MissingKey) (text : String) : String :=
  String.ofList (resolve lookup policy text).text

/-- Resolution without effects is the effectful one at the identity. -/
theorem resolve_eq_resolveM (lookup : Lookup) (policy : MissingKey) (text : String) :
    resolve lookup policy text = Id.run (resolveM (fun key => pure (lookup key)) policy text) := by
  unfold resolve resolveM
  induction pieces text.toList with
  | nil => rfl
  | cons p ps ih => cases p <;> simp [resolvePieces, resolvePiecesM, ih]

end BoundView.Interpolation
