import BoundView.Interpolation.Resolve
import BoundView.Json.Basic
import BoundView.Text.Shown

/-!
# Options of a component

Three switches: what an undeclared key shows as, whether bound inputs follow writes to their key,
and whether templates with undeclared keys or unknown methods are refused. They come from named
texts such as environment variables, or from JSON.
-/

namespace BoundView

open BoundView.Interpolation (MissingKey)

/-- **The switches of a component.** -/
structure Options where
  missingKey : MissingKey := .empty
  syncInputs : Bool := true
  strict : Bool := false
  deriving DecidableEq, Repr, Inhabited

namespace Options

/-- A truth value in a person's spelling: blanks around it and case do not matter. -/
def readFlag? (text : String) : Option Bool :=
  match Text.lowercase (Text.trimmed text) with
  | "1" | "true" | "yes" | "on" => some true
  | "0" | "false" | "no" | "off" => some false
  | _ => none

/-- **Options from texts**, each of which may be absent. A text that is not understood counts as
absent. -/
def ofTexts (missing sync strict : Option String) : Options where
  missingKey := (missing.bind MissingKey.read?).getD .empty
  syncInputs := (sync.bind readFlag?).getD true
  strict := (strict.bind readFlag?).getD false

/-- A policy in JSON: its name, or an object whose one field has that name and holds nothing. -/
def policyOfJson? : Json → Option MissingKey
  | .string name => MissingKey.ofName? name
  | .object [(name, .null)] => MissingKey.ofName? name
  | _ => none

/-- A switch in JSON. -/
def flagOfJson? : Json → Option Bool
  | .bool b => some b
  | _ => none

/-- A part that may be absent. -/
def orDefault {α : Type} (read : Json → Option α) (default : α) : Option Json → Option α
  | none => some default
  | some json => read json

/-- Options from the JSON of each part. -/
def ofParts? (missing sync strict : Option Json) : Option Options := do
  let missingKey ← orDefault policyOfJson? .empty missing
  let syncInputs ← orDefault flagOfJson? true sync
  let strict ← orDefault flagOfJson? false strict
  pure ⟨missingKey, syncInputs, strict⟩

/-- **Options from JSON**: an object, or an array of the parts in order, in which parts may be
absent. -/
def ofJson? : Json → Option Options
  | .object fields =>
    ofParts? (fields.lookup "missing_key") (fields.lookup "sync_bound_inputs")
      (fields.lookup "strict")
  | .array parts => if 3 < parts.length then none else ofParts? parts[0]? parts[1]? parts[2]?
  | _ => none

/-- A policy as diagnostics show it. -/
def shownPolicy : MissingKey → String
  | .empty => "Empty"
  | .undefined => "Undefined"
  | .literal => "Literal"

/-- Options as diagnostics show them. -/
def shown (o : Options) : String :=
  Text.shownRecord "VmOptions"
    [("missing_key", shownPolicy o.missingKey), ("sync_bound_inputs", Text.shownBool o.syncInputs),
      ("strict", Text.shownBool o.strict)]

end Options

end BoundView
