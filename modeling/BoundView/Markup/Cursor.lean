import BoundView.Text.Basic
import BoundView.Text.Cut

/-!
# A place in a source

A cursor is the rest of a source together with the number of bytes already read. Reading hands
back what was taken and the cursor behind it, whose rest is never longer: that is why reading ends.

Main statements: `length_drop_cutAt?_lt` and `length_takeWhile_lt`, what reads a character leaves
less.
-/

namespace BoundView.Markup

open BoundView.Text

/-- **A place in a source.** -/
structure Cursor where
  /-- The bytes before the place. -/
  offset : Nat
  /-- The characters after it. -/
  rest : List Char
  deriving DecidableEq, Repr

namespace Cursor

variable (c : Cursor)

/-- The place before the first character. -/
def start (source : List Char) : Cursor := ⟨0, source⟩

/-- The place behind the next `n` characters. -/
def drop (n : Nat) : Cursor := ⟨c.offset + bytes (c.rest.take n), c.rest.drop n⟩

/-- The run of characters that satisfy `keep`, and the place behind it. -/
def takeWhile (keep : Char → Bool) : List Char × Cursor :=
  let taken := c.rest.takeWhile keep
  (taken, ⟨c.offset + bytes taken, c.rest.dropWhile keep⟩)

/-- The place behind the blanks that come next. -/
def skipBlank : Cursor := (c.takeWhile isBlank).2

/-- What comes before the first rest that satisfies `stop`, and the place of that rest. -/
def cutAt? (stop : List Char → Bool) : Option (List Char × Cursor) :=
  (Text.cutAt? stop c.rest).map fun (before, after) => (before, ⟨c.offset + bytes before, after⟩)

/-- What comes before the first rest that satisfies `stop`, or everything, and the place behind. -/
def cutAt (stop : List Char → Bool) : List Char × Cursor :=
  let (before, after) := Text.cutAt stop c.rest
  (before, ⟨c.offset + bytes before, after⟩)

theorem length_drop (n : Nat) : (c.drop n).rest.length = c.rest.length - n := by simp [drop]

theorem length_takeWhile_le (keep : Char → Bool) :
    (c.takeWhile keep).2.rest.length ≤ c.rest.length :=
  (List.dropWhile_sublist keep).length_le

theorem length_skipBlank_le : c.skipBlank.rest.length ≤ c.rest.length :=
  length_takeWhile_le c isBlank

theorem length_cutAt?_le {stop : List Char → Bool} {before : List Char} {c' : Cursor}
    (h : c.cutAt? stop = some (before, c')) : c'.rest.length ≤ c.rest.length := by
  obtain ⟨⟨b, a⟩, hcut, heq⟩ := Option.map_eq_some_iff.mp h
  cases heq
  have := congrArg List.length (cutAt?_append hcut)
  simp only [List.length_append] at this
  simp only
  omega

/-- A cut behind the first characters leaves less, whatever is dropped behind it. -/
theorem length_drop_cutAt?_lt {stop : List Char → Bool} {before : List Char} {c' : Cursor}
    {m : Nat} (n : Nat) (hc : c.rest ≠ []) (hm : 0 < m)
    (h : (c.drop m).cutAt? stop = some (before, c')) :
    (c'.drop n).rest.length < c.rest.length := by
  have hpos : 0 < c.rest.length := List.length_pos_iff.mpr hc
  have hle := length_cutAt?_le _ h
  simp only [length_drop] at hle ⊢
  omega

theorem length_cutAt_le (stop : List Char → Bool) :
    (c.cutAt stop).2.rest.length ≤ c.rest.length := by
  have := congrArg List.length (cutAt_append stop c.rest)
  simp only [List.length_append] at this
  simp only [cutAt]
  omega

/-- A run that takes the first character shortens the rest. -/
theorem length_takeWhile_lt {keep : Char → Bool} {d : Char} {ds : List Char}
    (h : c.rest = d :: ds) (hd : keep d = true) :
    (c.takeWhile keep).2.rest.length < c.rest.length := by
  have := (List.dropWhile_sublist keep (l := ds)).length_le
  simp only [takeWhile, h, List.dropWhile_cons, hd, if_true, List.length_cons]
  omega

end Cursor

end BoundView.Markup
