import BoundView.Decimal.Layout
import BoundView.Json.Basic
import BoundView.Text.Shown

/-!
# Data values

What a component's keys hold: nothing, a truth value, a 64-bit integer, a double, or a text. The
text of a value is what a marker shows for it and what a bound input holds.

Two values are equal when they are of one kind and hold equal data; doubles compare as numbers, so
an undefined one differs from itself, and an integer never equals a double.
-/

namespace BoundView

/-- **A data value.** -/
inductive Value where
  | null
  | bool (b : Bool)
  | int (n : Int64)
  | float (x : Double)
  | str (s : String)
  deriving DecidableEq, Inhabited

namespace Value

/-- **The text of a value.** -/
def text : Value → String
  | null => "null"
  | bool b => Text.shownBool b
  | int n => toString n.toInt
  | float x => Decimal.Layout.plain.write x
  | str s => s

/-- The name of a value's kind. -/
def kind : Value → String
  | null => "null"
  | bool _ => "bool"
  | int _ => "int"
  | float _ => "float"
  | str _ => "string"

/-- The text that a text value holds. -/
def str? : Value → Option String
  | str s => some s
  | _ => none

/-- The integer that an integer value holds. -/
def int? : Value → Option Int64
  | int n => some n
  | _ => none

/-- The number that a value holds, as a double. -/
def float? : Value → Option Double
  | int n => some (.ofFloat n.toFloat)
  | float x => some x
  | _ => none

/-- The truth value that a value holds. -/
def bool? : Value → Option Bool
  | bool b => some b
  | _ => none

/-- **Equality as data**: of one kind, and equal in that kind. -/
def isEqual : Value → Value → Bool
  | null, null => true
  | bool a, bool b => a == b
  | int m, int n => m == n
  | float x, float y => x.isEqual y
  | str s, str t => s == t
  | _, _ => false

/-- Whether a value is nothing. -/
def isNull : Value → Bool
  | null => true
  | _ => false

/-- Whether an integer fits a 64-bit word with sign. -/
def isWord (n : Int) : Bool := -0x8000000000000000 ≤ n && n < 0x8000000000000000

/-- **The value of a JSON value.** Arrays and objects become their compact text. -/
def ofJson : Json → Value
  | .null => null
  | .bool b => bool b
  | .number (.int n) => if isWord n then int (Int64.ofInt n) else float (.ofFloat (Float.ofInt n))
  | .number (.real x) => float x
  | .string s => str s
  | json => str json.write

/-- **The JSON value of a value.** JSON has no infinite and no undefined numbers. -/
def toJson : Value → Json
  | null => .null
  | bool b => .bool b
  | int n => .number (.int n.toInt)
  | float x => if x.isFinite then .number (.real x) else .null
  | str s => .string s

/-- A value as diagnostics show it. -/
def shown : Value → String
  | null => "Null"
  | bool b => Text.shownCase "Bool" (Text.shownBool b)
  | int n => Text.shownCase "Int" (toString n.toInt)
  | float x => Text.shownCase "Float" (Decimal.Layout.diagnostic.write x)
  | str s => Text.shownCase "Str" (Text.quoted s)

/-- The sum of two integers in 64 bits; a value that is no integer counts as zero. -/
def plus (v : Value) (n : Int64) : Value := int (v.int?.getD 0 + n)

end Value

end BoundView
