import BoundView.Decimal.Layout

/-!
# JSON values and their compact text

Numbers keep the difference that matters to data: an integer literal in the range of 64-bit words
is an integer, every other number is a double. The fields of an object are kept in the order of
their names, one field a name.

The compact text of a value has no blanks and its fields in order, and in its strings only what JSON
requires is escaped: the quote, the backslash and the characters below the space.
-/

namespace BoundView

/-- **A JSON number.** -/
inductive Json.Number where
  /-- An integer literal from `-2 ^ 63` below `2 ^ 64`. -/
  | int (n : Int)
  | real (x : Double)

/-- **A JSON value.** -/
inductive Json where
  | null
  | bool (b : Bool)
  | number (n : Json.Number)
  | string (s : String)
  | array (items : List Json)
  | object (fields : List (String × Json))

namespace Json

instance : Inhabited Json := ⟨.null⟩

/-- Adds a field at the place of its name; a field of the same name is replaced. -/
def insertField (name : String) (value : Json) : List (String × Json) → List (String × Json)
  | [] => [(name, value)]
  | (other, old) :: rest =>
    if name = other then (name, value) :: rest
    else if name < other then (name, value) :: (other, old) :: rest
    else (other, old) :: insertField name value rest

/-- An object from fields in any order; of fields of one name the last stays. -/
def ofFields (fields : List (String × Json)) : Json :=
  .object (fields.foldl (fun sorted (name, value) => insertField name value sorted) [])

/-- The field of an object; `null` when there is none. -/
def field (name : String) : Json → Json
  | .object fields => (fields.lookup name).getD .null
  | _ => .null

/-- Whether an object has a field that is not `null`. -/
def has (name : String) (json : Json) : Bool :=
  match json.field name with
  | .null => false
  | _ => true

/-! ## Compact text -/

/-- One character of a string. -/
def escapeChar (c : Char) : List Char :=
  match c with
  | '"' => ['\\', '"']
  | '\\' => ['\\', '\\']
  | '\x08' => ['\\', 'b']
  | '\x0c' => ['\\', 'f']
  | '\n' => ['\\', 'n']
  | '\r' => ['\\', 'r']
  | '\t' => ['\\', 't']
  | c =>
    if c.toNat < 0x20 then
      ['\\', 'u', '0', '0', Nat.digitChar (c.toNat / 16), Nat.digitChar (c.toNat % 16)]
    else [c]

/-- A string between its quotes. -/
def writeString (s : String) : String :=
  String.ofList ('"' :: s.toList.flatMap escapeChar ++ ['"'])

/-- A number: an integer in decimal, a double in its shortest form with a fraction. -/
def Number.write : Number → String
  | .int n => toString n
  | .real x => Decimal.Layout.json.write x

mutual
/-- **The compact text of a value.** -/
def write : Json → String
  | .null => "null"
  | .bool b => if b then "true" else "false"
  | .number n => n.write
  | .string s => writeString s
  | .array items => "[" ++ ",".intercalate (writeItems items) ++ "]"
  | .object fields => "\x7b" ++ ",".intercalate (writeFields fields) ++ "\x7d"
/-- The texts of the items of an array. -/
def writeItems : List Json → List String
  | [] => []
  | item :: items => item.write :: writeItems items
/-- The texts of the fields of an object. -/
def writeFields : List (String × Json) → List String
  | [] => []
  | (name, value) :: fields => (writeString name ++ ":" ++ value.write) :: writeFields fields
end

end Json

end BoundView
