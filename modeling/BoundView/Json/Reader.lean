import BoundView.Json.Basic
import BoundView.Text.Basic

/-!
# Reading JSON text

Strings and structure follow the JSON grammar. A number is an integer when it is written without a
fraction and an exponent and lies in the range of 64-bit words; zero with a sign is a double.

A double is read from at most the leading digits that fit an unsigned 64-bit word: further digits
of the whole part only raise the exponent, further digits of the fraction are dropped. The word
becomes a double, and one multiplication or division by a power of ten places the point.
-/

namespace BoundView.Json

/-- The rest after leading JSON blanks. -/
def skipBlank (cs : List Char) : List Char :=
  cs.dropWhile fun c => c == ' ' || c == '\t' || c == '\n' || c == '\r'

/-- Four hexadecimal digits. -/
def hexUnit? (cs : List Char) : Option (Nat × List Char) :=
  if cs.length < 4 then none
  else (Text.number? 16 (cs.take 4)).map fun unit => (unit, cs.drop 4)

/-- The character of an escape after `\u`; two units make a character beyond the first plane. -/
def unicodeEscape? (cs : List Char) : Option (Char × List Char) := do
  let (unit, rest) ← hexUnit? cs
  if 0xD800 ≤ unit ∧ unit < 0xDC00 then
    match rest with
    | '\\' :: 'u' :: rest =>
      let (low, rest) ← hexUnit? rest
      if 0xDC00 ≤ low ∧ low < 0xE000 then
        some (Char.ofNat (0x10000 + (unit - 0xD800) * 0x400 + (low - 0xDC00)), rest)
      else none
    | _ => none
  else if 0xDC00 ≤ unit ∧ unit < 0xE000 then none
  else some (Char.ofNat unit, rest)

/-- The characters of a string up to its closing quote; `fuel` bounds their number. -/
def stringBody : Nat → List Char → Option (List Char × List Char)
  | 0, _ => none
  | fuel + 1, cs =>
    match cs with
    | '"' :: rest => some ([], rest)
    | '\\' :: 'u' :: rest => do
      let (c, rest) ← unicodeEscape? rest
      let (body, rest) ← stringBody fuel rest
      pure (c :: body, rest)
    | '\\' :: e :: rest => do
      let c ← match e with
        | '"' => some '"'
        | '\\' => some '\\'
        | '/' => some '/'
        | 'b' => some '\x08'
        | 'f' => some '\x0c'
        | 'n' => some '\n'
        | 'r' => some '\r'
        | 't' => some '\t'
        | _ => none
      let (body, rest) ← stringBody fuel rest
      pure (c :: body, rest)
    | c :: rest =>
      if c.toNat < 0x20 then none
      else do
        let (body, rest) ← stringBody fuel rest
        pure (c :: body, rest)
    | [] => none

/-- A power of ten as a double. -/
def tenTo (e : Nat) : Float := Float.ofScientific 1 false e

/-- Divides by `10 ^ e`, in steps of at most `10 ^ 308`. -/
def scaleDown (x : Float) (e : Nat) : Float :=
  if h : e ≤ 308 then x / tenTo e
  else if x == 0 then x
  else scaleDown (x / tenTo 308) (e - 308)
termination_by e

/-- **A double from its digits**; `none` when it is too large. -/
def double? (negative : Bool) (significand : UInt64) (exponent : Int) : Option Float :=
  let x := significand.toFloat
  let scaled :=
    if exponent < 0 then some (scaleDown x exponent.natAbs)
    else if exponent ≤ 308 then
      let y := x * tenTo exponent.toNat
      if y.isInf then none else some y
    else if x == 0 then some x
    else none
  scaled.map fun y => if negative then -y else y

/-- The digits that a reader keeps, and the power of ten that they are off by. -/
structure Digits where
  significand : Nat
  exponent : Int
  /-- A digit did not fit; the later ones are not kept either. -/
  full : Bool

namespace Digits

/-- Whether one more digit fits an unsigned 64-bit word. -/
def fits (d : Digits) (digit : Nat) : Bool :=
  !d.full && d.significand * 10 + digit < 0x10000000000000000

/-- A digit of the whole part. -/
def whole (d : Digits) (c : Char) : Digits :=
  let digit := c.toNat - '0'.toNat
  if d.fits digit then { d with significand := d.significand * 10 + digit }
  else { d with exponent := d.exponent + 1, full := true }

/-- A digit of the fraction. -/
def fraction (d : Digits) (c : Char) : Digits :=
  let digit := c.toNat - '0'.toNat
  if d.fits digit then ⟨d.significand * 10 + digit, d.exponent - 1, false⟩
  else { d with full := true }

end Digits

/-- The digits of an exponent with their sign, behind its `e`. -/
def exponentPart? (cs : List Char) : Option (Int × List Char) :=
  let (negative, cs) := match cs with
    | '+' :: rest => (false, rest)
    | '-' :: rest => (true, rest)
    | _ => (false, cs)
  let digits := cs.takeWhile Char.isDigit
  if digits.isEmpty then none
  else
    let n : Nat := digits.foldl (fun n c => n * 10 + (c.toNat - '0'.toNat)) 0
    some (if negative then -n else n, cs.dropWhile Char.isDigit)

/-- A number without its sign. -/
def unsignedNumber? (negative : Bool) (cs : List Char) : Option (Number × List Char) := do
  let digits := cs.takeWhile Char.isDigit
  let rest := cs.dropWhile Char.isDigit
  if digits.isEmpty || (1 < digits.length && digits.head? == some '0') then none
  let whole : Digits := digits.foldl Digits.whole ⟨0, 0, false⟩
  let (point, read, rest) ← match rest with
    | '.' :: rest =>
      let places := rest.takeWhile Char.isDigit
      if places.isEmpty then none
      else
        let start : Digits := { whole with full := false }
        some (true, places.foldl Digits.fraction start, rest.dropWhile Char.isDigit)
    | _ => some (false, whole, rest)
  let (raised, e, rest) ← match rest with
    | 'e' :: rest | 'E' :: rest => do
      let (e, rest) ← exponentPart? rest
      pure (true, e, rest)
    | _ => some (false, 0, rest)
  let n := read.significand
  if !point && !raised && !read.full && !(negative && (n == 0 || 0x8000000000000000 < n)) then
    pure (.int (if negative then -n else n), rest)
  else do
    let x ← double? negative n.toUInt64 (read.exponent + e)
    pure (.real (.ofFloat x), rest)

/-- A number. -/
def number? : List Char → Option (Number × List Char)
  | '-' :: rest => unsignedNumber? true rest
  | cs => unsignedNumber? false cs

mutual
/-- A value and what follows it; `fuel` bounds the steps. -/
def value? : Nat → List Char → Option (Json × List Char)
  | 0, _ => none
  | fuel + 1, cs =>
    match skipBlank cs with
    | 'n' :: 'u' :: 'l' :: 'l' :: rest => some (.null, rest)
    | 't' :: 'r' :: 'u' :: 'e' :: rest => some (.bool true, rest)
    | 'f' :: 'a' :: 'l' :: 's' :: 'e' :: rest => some (.bool false, rest)
    | '"' :: rest => do
      let (body, rest) ← stringBody (rest.length + 1) rest
      pure (.string (String.ofList body), rest)
    | '[' :: rest =>
      match skipBlank rest with
      | ']' :: rest => some (.array [], rest)
      | rest => do
        let (items, rest) ← items? fuel rest
        pure (.array items, rest)
    | '\x7b' :: rest =>
      match skipBlank rest with
      | '\x7d' :: rest => some (.object [], rest)
      | rest => do
        let (fields, rest) ← fields? fuel rest
        pure (ofFields fields, rest)
    | rest => do
      let (n, rest) ← number? rest
      pure (.number n, rest)
/-- The items of an array up to its closing bracket. -/
def items? : Nat → List Char → Option (List Json × List Char)
  | 0, _ => none
  | fuel + 1, cs => do
    let (item, rest) ← value? fuel cs
    match skipBlank rest with
    | ',' :: rest => do
      let (items, rest) ← items? fuel rest
      pure (item :: items, rest)
    | ']' :: rest => pure ([item], rest)
    | _ => none
/-- The fields of an object up to its closing brace. -/
def fields? : Nat → List Char → Option (List (String × Json) × List Char)
  | 0, _ => none
  | fuel + 1, cs =>
    match skipBlank cs with
    | '"' :: rest => do
      let (name, rest) ← stringBody (rest.length + 1) rest
      match skipBlank rest with
      | ':' :: rest => do
        let (value, rest) ← value? fuel rest
        match skipBlank rest with
        | ',' :: rest => do
          let (fields, rest) ← fields? fuel rest
          pure ((String.ofList name, value) :: fields, rest)
        | '\x7d' :: rest => pure ([(String.ofList name, value)], rest)
        | _ => none
      | _ => none
    | _ => none
end

/-- **Reads a JSON text**; `none` when it is not one. Every level of nesting takes two steps and at
least one character, so twice the length is fuel enough. -/
def parse? (text : String) : Option Json := do
  let cs := text.toList
  let (value, rest) ← value? (2 * cs.length + 2) cs
  if (skipBlank rest).isEmpty then some value else none

end BoundView.Json
