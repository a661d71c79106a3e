import BoundView.Decimal.Shortest

/-!
# Layouts of a double

A layout says how a shortest decimal is written: between which point positions it is written
without an exponent, what follows a whole number, what stands before an exponent above zero, and
how ties of the shortest search go. Every layout writes a negative sign in front, also before zero.
-/

namespace BoundView.Decimal

/-- **A layout.** -/
structure Layout where
  /-- The least point position written without an exponent; `none` for no bound. -/
  least : Option Int
  /-- The greatest one. -/
  greatest : Option Int
  /-- What follows the digits of a whole number. -/
  wholeTail : String
  /-- The sign of an exponent above zero. -/
  raisedSign : String
  tie : Tie
  /-- The text of a positive infinity. -/
  infinity : String

/-- The text that people read: plain decimal, however long. -/
def Layout.plain : Layout := ⟨none, none, "", "", .up, "Infinity"⟩

/-- The text in diagnostics: from `0.0001` below `10 ^ 16` in plain decimal with a fraction. -/
def Layout.diagnostic : Layout := ⟨some (-3), some 16, ".0", "", .up, "inf"⟩

/-- The text in JSON: from `0.00001` below `10 ^ 16` in plain decimal with a fraction, otherwise with
the sign of the exponent. -/
def Layout.json : Layout := ⟨some (-4), some 16, ".0", "+", .even, "null"⟩

namespace Layout

variable (layout : Layout)

/-- Whether a point position is written without an exponent. -/
def isPlain (place : Int) : Bool :=
  (layout.least.all (· ≤ place)) && (layout.greatest.all (place ≤ ·))

/-- A run of zeros, empty for a count below one. -/
def zeros (count : Int) : String := String.ofList (List.replicate count.toNat '0')

/-- Digits with the point behind the first `place` of them. -/
def positional (digits : List Char) (place : Int) : String :=
  if place ≤ 0 then "0." ++ zeros (-place) ++ String.ofList digits
  else if place < digits.length then
    String.ofList (digits.take place.toNat) ++ "." ++ String.ofList (digits.drop place.toNat)
  else String.ofList digits ++ zeros (place - digits.length) ++ layout.wholeTail

/-- Digits with the point behind the first, and a power of ten. -/
def exponential (digits : List Char) (place : Int) : String :=
  String.ofList (digits.take 1) ++ (if digits.length ≤ 1 then "" else ".") ++
    String.ofList (digits.drop 1) ++ "e" ++ (if 1 < place then layout.raisedSign else "") ++
    toString (place - 1)

/-- A positive decimal. -/
def scientific (s : Scientific) : String :=
  let digits := Nat.toDigits 10 s.significand
  let place := digits.length + s.exponent
  if layout.isPlain place then layout.positional digits place else layout.exponential digits place

/-- The sign in front of a text. -/
def signed (negative : Bool) (text : String) : String := if negative then "-" ++ text else text

/-- The text of a double's parts. -/
def text : Parts → String
  | .nan => "NaN"
  | .infinite negative => signed negative layout.infinity
  | .zero negative => signed negative ("0" ++ layout.wholeTail)
  | .finite negative x => signed negative (layout.scientific (shortest layout.tie x))

/-- **The text of a double.** -/
def write (x : Double) : String := layout.text (.ofBits x.bits)

end Layout

end BoundView.Decimal
