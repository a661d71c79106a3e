import Mathlib.Data.List.Forall2
import Mathlib.Data.Nat.Digits.Defs
import Mathlib.Tactic.Ring
import BoundView.Text.Basic

/-!
# Numerals

A digit is a character of the alphabet of sixteen digits, in either case, and its value is its place
there. A numeral is one digit or more, with the value that positional notation gives it. The reader
multiplies and adds from the left, and goes by ranges of code points; both are related to the alphabet
here, once, so that what is said of numbers in a text does not depend on how they are read.

Main statement: `number?_eq_some_iff`.
-/

namespace BoundView.Text

/-- The character is a digit of the radix, with this value. -/
def IsDigit (radix : Nat) (c : Char) (value : Nat) : Prop :=
  value < radix ∧
    ("0123456789abcdef".toList[value]? = some c ∨ "0123456789ABCDEF".toList[value]? = some c)

/-- **A numeral**: one digit or more, with its value in the radix. -/
def Numeral (radix : Nat) (digits : List Char) (n : Nat) : Prop :=
  digits ≠ [] ∧
    ∃ values, List.Forall₂ (IsDigit radix) digits values ∧ n = Nat.ofDigits radix values.reverse

variable {radix n : Nat} {c : Char}

/-- A numeral begins with a character of the alphabet: no sign, and no mark of a radix. -/
theorem Numeral.head_mem {cs : List Char} (h : Numeral radix (c :: cs) n) :
    c ∈ "0123456789abcdefABCDEF".toList := by
  have hmem : ∀ d, d ∈ "0123456789abcdef".toList ∨ d ∈ "0123456789ABCDEF".toList →
      d ∈ "0123456789abcdefABCDEF".toList := by simp; grind
  obtain ⟨-, values, hdigits, -⟩ := h
  obtain ⟨value, _, ⟨-, hplace⟩, -⟩ := List.forall₂_cons_left_iff.mp hdigits
  exact hmem c (hplace.imp List.mem_of_getElem? List.mem_of_getElem?)

/-- A radix below sixteen only leaves digits out. -/
theorem digit?_eq_filter (radix : Nat) (c : Char) (h : radix ≤ 16) :
    digit? radix c = (digit? 16 c).filter (· < radix) := by
  simp only [digit?, Option.filter_filter]
  congr 1
  funext value
  simp only [Bool.and_eq_decide, decide_eq_true_eq, decide_eq_decide]
  omega

/-- What the reader takes for a digit lies in the alphabet, at the place of its value. -/
theorem mem_alphabet_of_digit? {value : Nat} (h : digit? 16 c = some value) :
    "0123456789abcdef".toList[value]? = some c ∨ "0123456789ABCDEF".toList[value]? = some c := by
  have hnine : ∀ k < 10, "0123456789abcdef".toList[k]? = some (Char.ofNat (k + 48)) := by decide
  have hsmall : ∀ k < 6, "0123456789abcdef".toList[k + 10]? = some (Char.ofNat (k + 97)) := by decide
  have hcapital : ∀ k < 6, "0123456789ABCDEF".toList[k + 10]? = some (Char.ofNat (k + 65)) := by decide
  obtain ⟨hvalue, -⟩ := Option.filter_eq_some_iff.mp h
  simp only [Char.le_def, UInt32.le_iff_toNat_le, Char.toNat_val, Char.reduceToNat] at hvalue
  split at hvalue
  · cases hvalue
    rw [hnine _ (by omega), Nat.sub_add_cancel (by omega), Char.ofNat_toNat]
    simp
  · split at hvalue
    · cases hvalue
      rw [hsmall _ (by omega), Nat.sub_add_cancel (by omega), Char.ofNat_toNat]
      simp
    · split at hvalue
      · cases hvalue
        rw [hcapital _ (by omega), Nat.sub_add_cancel (by omega), Char.ofNat_toNat]
        simp
      · cases hvalue

/-- **Digits are read** as the alphabet has them. -/
theorem digit?_eq_some_iff {value : Nat} (h : radix ≤ 16) :
    digit? radix c = some value ↔ IsDigit radix c value := by
  have hsmall : ∀ k < 16, "0123456789abcdef".toList[k]?.bind (digit? 16) = some k := by decide
  have hcapital : ∀ k < 16, "0123456789ABCDEF".toList[k]?.bind (digit? 16) = some k := by decide
  rw [digit?_eq_filter radix c h, Option.filter_eq_some_iff, decide_eq_true_eq, and_comm]
  apply and_congr_right
  intro hlt
  constructor
  · exact mem_alphabet_of_digit?
  · rintro (hplace | hplace)
    · have hread := hsmall value (by omega)
      rwa [hplace] at hread
    · have hread := hcapital value (by omega)
      rwa [hplace] at hread

/-- Reading on behind the digits of `high` adds what the further digits write below them. -/
theorem numberFrom?_eq_some_iff (h : radix ≤ 16) {high : Nat} {cs : List Char} :
    numberFrom? radix high cs = some n ↔
      ∃ values, List.Forall₂ (IsDigit radix) cs values ∧
        n = high * radix ^ values.length + Nat.ofDigits radix values.reverse := by
  induction cs generalizing high with
  | nil => simp [numberFrom?, eq_comm]
  | cons c cs ih =>
    simp only [numberFrom?, Option.bind_eq_some_iff, digit?_eq_some_iff h, ih, List.forall₂_cons_left_iff]
    constructor
    · rintro ⟨value, hdigit, values, hdigits, rfl⟩
      use value :: values
      constructor
      · exact ⟨value, values, hdigit, hdigits, rfl⟩
      · simp [Nat.ofDigits_append, pow_succ]
        ring
    · rintro ⟨_, ⟨value, values, hdigit, hdigits, rfl⟩, rfl⟩
      use value, hdigit, values, hdigits
      simp [Nat.ofDigits_append, pow_succ]
      ring

/-- **The number read** is the value of the numeral; nothing but a numeral is read. -/
theorem number?_eq_some_iff (h : radix ≤ 16) {digits : List Char} :
    number? radix digits = some n ↔ Numeral radix digits n := by
  cases digits with
  | nil => simp [number?, Numeral]
  | cons c cs => simp [number?, Numeral, numberFrom?_eq_some_iff h]

end BoundView.Text
