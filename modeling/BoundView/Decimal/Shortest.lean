/-!
# Doubles, and the shortest decimal that reads back

A double is kept as its sixty-four bits: a sign, eleven bits of exponent and fifty-two of fraction.
So two undefined numbers of different bits stay different things, though neither equals anything as
a number, and the two zeros stay apart, though they are equal.

A finite double is `mantissa · 2 ^ exponent`. The reals that round to it form an interval around
it; the shortest decimal of a double is a decimal of that interval with the fewest digits, and of
those the nearest. `shortest` looks at the grids of one, two, … seventeen digits in turn and tests
the two neighbours of the value on each grid, in exact arithmetic on naturals. When both neighbours
are in the interval and equally near, a `Tie` decides.
-/

namespace BoundView

/-- **A double**, as its bits. -/
structure Double where
  bits : UInt64
  deriving DecidableEq, Repr, Inhabited

namespace Double

/-- The double that a computation gave. -/
def ofFloat (x : Float) : Double := ⟨x.toBits⟩

/-- The bits without the sign. -/
def magnitude (x : Double) : UInt64 := x.bits &&& 0x7FFFFFFFFFFFFFFF

/-- The magnitude of infinity. Finite numbers lie below it, undefined ones above. -/
def infinity : UInt64 := 0x7FF0000000000000

/-- Whether a double is neither infinite nor undefined. -/
def isFinite (x : Double) : Bool := x.magnitude < infinity

/-- Whether a double is undefined. -/
def isUndefined (x : Double) : Bool := infinity < x.magnitude

/-- Whether a double is one of the two zeros. -/
def isZero (x : Double) : Bool := x.magnitude == 0

/-- **Equality as numbers**: the two zeros are equal, an undefined number equals nothing. -/
def isEqual (x y : Double) : Bool :=
  !x.isUndefined && !y.isUndefined && (x.bits == y.bits || (x.isZero && y.isZero))

end Double

namespace Decimal

/-- A positive binary number `mantissa · 2 ^ exponent`. -/
structure Binary where
  mantissa : Nat
  exponent : Int
  /-- The gap to the next smaller double is half the gap to the next larger one. -/
  narrow : Bool
  deriving DecidableEq, Repr

/-- **The parts of a double.** -/
inductive Parts where
  | nan
  | infinite (negative : Bool)
  | zero (negative : Bool)
  | finite (negative : Bool) (magnitude : Binary)
  deriving DecidableEq, Repr

/-- Reads the three fields of a double's 64 bits. -/
def Parts.ofBits (bits : UInt64) : Parts :=
  let negative := bits >>> 63 == 1
  let field := ((bits >>> 52) &&& 0x7FF).toNat
  let fraction := (bits &&& 0xFFFFFFFFFFFFF).toNat
  if field = 0x7FF then
    if fraction = 0 then .infinite negative else .nan
  else if field = 0 then
    if fraction = 0 then .zero negative else .finite negative ⟨fraction, -1074, false⟩
  else .finite negative ⟨fraction + 0x10000000000000, (field : Int) - 1075, fraction = 0 && 1 < field⟩

/-- A decimal `significand · 10 ^ exponent`. -/
structure Scientific where
  significand : Nat
  exponent : Int
  deriving DecidableEq, Repr

/-- Which of two equally near decimals is taken. -/
inductive Tie where
  /-- The larger one. -/
  | up
  /-- The one with an even last digit. -/
  | even
  deriving DecidableEq, Repr

namespace Binary

variable (x : Binary)

/-- `base ^ e` for the part of an exponent above zero. -/
def rise (base : Nat) (e : Int) : Nat := base.pow e.toNat

/-- **The point position**: `10 ^ (place - 1) ≤ x < 10 ^ place`. Three hundred and forty extra places
bring every positive double above one, so that its digits can be counted. -/
def place : Int :=
  let scaled := x.mantissa * rise 2 x.exponent * rise 10 340 / rise 2 (-x.exponent)
  ((Nat.toDigits 10 scaled).length : Int) - 340

/-- `k / 4` of the last binary place of `x`, counted in units of `10 ^ scale`: a numerator over
`denominator scale`. -/
def numerator (k : Nat) (scale : Int) : Nat := k * rise 2 x.exponent * rise 10 (-scale)

/-- The denominator of `numerator`. -/
def denominator (scale : Int) : Nat := 4 * rise 2 (-x.exponent) * rise 10 scale

/-- Whether `d · 10 ^ scale` rounds to `x`. The ends of the interval belong to it when the mantissa
is even. -/
def roundsTo (scale : Int) (d : Nat) : Bool :=
  let low := x.numerator (4 * x.mantissa - if x.narrow then 1 else 2) scale
  let high := x.numerator (4 * x.mantissa + 2) scale
  let point := d * x.denominator scale
  if x.mantissa % 2 = 0 then low ≤ point && point ≤ high else low < point && point < high

/-- The better neighbour of `x` on the grid of multiples of `10 ^ scale`, if either rounds to `x`. -/
def onGrid (tie : Tie) (scale : Int) : Option Nat :=
  let num := x.numerator (4 * x.mantissa) scale
  let den := x.denominator scale
  let below := num / den
  let rest := num % den
  match x.roundsTo scale below, x.roundsTo scale (below + 1) with
  | false, false => none
  | true, false => some below
  | false, true => some (below + 1)
  | true, true =>
    if 2 * rest < den then some below
    else if den < 2 * rest then some (below + 1)
    else match tie with
      | .up => some (below + 1)
      | .even => some (below + below % 2)

end Binary

/-- Moves the zeros at the end of a significand into the exponent; `fuel` bounds their number. -/
def Scientific.strip : Nat → Scientific → Scientific
  | 0, s => s
  | fuel + 1, s =>
    if s.significand ≠ 0 ∧ s.significand % 10 = 0 then
      strip fuel ⟨s.significand / 10, s.exponent + 1⟩
    else s

/-- **The shortest decimal** that rounds to `x`, without zeros at the end. Seventeen digits always
suffice. -/
def shortest (tie : Tie) (x : Binary) : Scientific :=
  let withDigits (n : Nat) : Option Scientific :=
    let scale := x.place - (n + 1 : Nat)
    (x.onGrid tie scale).map fun d => ⟨d, scale⟩
  (((List.range 17).findSome? withDigits).getD ⟨x.mantissa, x.exponent⟩).strip 20

example : shortest .up ⟨1, -1074, false⟩ = ⟨5, -324⟩ := by decide +kernel

end Decimal

end BoundView
