/-!
# Texts as lists of characters

What readers of markup, templates and selectors ask of a text: its length, its lower case, its
blanks and its digits.

Offsets that the library reports count the bytes of a text's UTF-8 form, not its characters. A
character is **blank** when Unicode gives it the property `White_Space`: keys are trimmed of
blanks, template text that is all blank is dropped, and selectors and class attributes are read
word by word. Of digits only the ASCII ones count, and a number is a non-empty run of digits of one
radix.
-/

namespace BoundView.Text

/-! ## Bytes and case -/

/-- **Bytes** of the UTF-8 form of a list of characters. -/
def bytes : List Char → Nat
  | [] => 0
  | c :: cs => c.utf8Size + bytes cs

@[simp] theorem bytes_nil : bytes [] = 0 := rfl

@[simp] theorem bytes_cons (c : Char) (cs : List Char) : bytes (c :: cs) = c.utf8Size + bytes cs := rfl

@[simp] theorem bytes_append (cs ds : List Char) : bytes (cs ++ ds) = bytes cs + bytes ds := by
  induction cs with
  | nil => simp
  | cons c cs ih => simp [ih, Nat.add_assoc]

/-- ASCII lower case; every other character stays. -/
def lower (cs : List Char) : List Char := cs.map Char.toLower

/-- ASCII upper case; every other character stays. -/
def upper (cs : List Char) : List Char := cs.map Char.toUpper

/-- `String` form of `lower`. -/
def lowercase (s : String) : String := String.ofList (lower s.toList)

/-- `String` form of `upper`. -/
def uppercase (s : String) : String := String.ofList (upper s.toList)

@[simp] theorem lower_append (cs ds : List Char) : lower (cs ++ ds) = lower cs ++ lower ds := by
  simp [lower]

/-! ## Blanks and words -/

/-- **Blank**: the property `White_Space`. -/
def isBlank (c : Char) : Bool :=
  let n := c.toNat
  (0x9 ≤ n && n ≤ 0xD) || n == 0x20 || n == 0x85 || n == 0xA0 || n == 0x1680 ||
    (0x2000 ≤ n && n ≤ 0x200A) || n == 0x2028 || n == 0x2029 || n == 0x202F || n == 0x205F ||
    n == 0x3000

/-- Drops the blanks at both ends. -/
def trim (cs : List Char) : List Char :=
  ((cs.dropWhile isBlank).reverse.dropWhile isBlank).reverse

/-- The word that touches the left end (`[]` when a blank does) and the words after it. -/
def wordsFrom : List Char → List Char × List (List Char)
  | [] => ([], [])
  | c :: cs =>
    let (word, words) := wordsFrom cs
    if isBlank c then ([], if word.isEmpty then words else word :: words) else (c :: word, words)

/-- **Words**: the maximal runs of characters that are not blank. -/
def words (cs : List Char) : List (List Char) :=
  let (word, words) := wordsFrom cs
  if word.isEmpty then words else word :: words

/-- `String` form of `trim`. -/
def trimmed (s : String) : String := String.ofList (trim s.toList)

example : words "  a  bc ".toList = ["a".toList, "bc".toList] := by decide

/-! ## Digits and the numbers they write -/

/-- The value of a character as a digit of a radix up to sixteen; letters count in either case. -/
def digit? (radix : Nat) (c : Char) : Option Nat :=
  let value? :=
    if '0' ≤ c ∧ c ≤ '9' then some (c.toNat - '0'.toNat)
    else if 'a' ≤ c ∧ c ≤ 'f' then some (c.toNat - 'a'.toNat + 10)
    else if 'A' ≤ c ∧ c ≤ 'F' then some (c.toNat - 'A'.toNat + 10)
    else none
  value?.filter (· < radix)

/-- The number that a run of digits writes behind the digits of `high`. -/
def numberFrom? (radix : Nat) : Nat → List Char → Option Nat
  | high, [] => some high
  | high, c :: cs => (digit? radix c).bind fun d => numberFrom? radix (high * radix + d) cs

/-- **The number** that a text writes; `none` when it is empty or holds anything but digits. -/
def number? (radix : Nat) (cs : List Char) : Option Nat :=
  if cs.isEmpty then none else numberFrom? radix 0 cs

example : number? 16 "2f".toList = some 47 := by decide

example : number? 10 "2f".toList = none := by decide

end BoundView.Text
