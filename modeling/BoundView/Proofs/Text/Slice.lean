import BoundView.Proofs.Text.Cut
import BoundView.Text.Basic

/-!
# Slices by byte offsets

A text is sliced at byte offsets. A slice is refused when an offset lies beyond the end, or inside a
character: `from?`, `upTo?` and `slice?` answer `none` there. A search answers with the byte offset of
its first match (`find?`).

Main statements: `from?_eq_some_iff`, an offset is met exactly where a text can be cut in two, and
`slice?_append`, the slice between two such places; `find?_append`, a search answers with a place where
the text can be cut.
-/

namespace BoundView.Text

/-- **The characters from a byte offset on.** -/
def from? (cs : List Char) (offset : Nat) : Option (List Char) :=
  match cs, offset with
  | cs, 0 => some cs
  | [], _ + 1 => none
  | c :: cs, n + 1 => if c.utf8Size ≤ n + 1 then from? cs (n + 1 - c.utf8Size) else none

/-- **The characters before a byte offset.** -/
def upTo? (cs : List Char) (offset : Nat) : Option (List Char) :=
  match cs, offset with
  | _, 0 => some []
  | [], _ + 1 => none
  | c :: cs, n + 1 =>
    if c.utf8Size ≤ n + 1 then (upTo? cs (n + 1 - c.utf8Size)).map (c :: ·) else none

/-- **The characters between two byte offsets.** -/
def slice? (cs : List Char) (first last : Nat) : Option (List Char) :=
  if first ≤ last then (from? cs first).bind fun rest => upTo? rest (last - first) else none

/-- **The byte offset of the first rest** that satisfies a condition. -/
def find? (stop : List Char → Bool) (cs : List Char) : Option Nat :=
  (cutAt? stop cs).map fun cut => bytes cut.1

/-- Whether a rest begins with a character of this kind. -/
def headIs (p : Char → Bool) (cs : List Char) : Bool := cs.head?.any p

theorem from?_zero (cs : List Char) : from? cs 0 = some cs := by
  cases cs <;> rfl

theorem from?_append (before rest : List Char) : from? (before ++ rest) (bytes before) = some rest := by
  induction before with
  | nil => exact from?_zero rest
  | cons c cs ih =>
    have hc := c.utf8Size_pos
    obtain ⟨n, hn⟩ := Nat.exists_eq_succ_of_ne_zero (n := c.utf8Size + bytes cs) (by omega)
    have hle : c.utf8Size ≤ n + 1 := by omega
    have hsub : n + 1 - c.utf8Size = bytes cs := by omega
    rw [bytes_cons, hn, List.cons_append]
    simp only [from?, hle, hsub, if_true, ih]

theorem upTo?_append (before rest : List Char) : upTo? (before ++ rest) (bytes before) = some before := by
  induction before with
  | nil => cases rest <;> rfl
  | cons c cs ih =>
    have hc := c.utf8Size_pos
    obtain ⟨n, hn⟩ := Nat.exists_eq_succ_of_ne_zero (n := c.utf8Size + bytes cs) (by omega)
    have hle : c.utf8Size ≤ n + 1 := by omega
    have hsub : n + 1 - c.utf8Size = bytes cs := by omega
    rw [bytes_cons, hn, List.cons_append]
    simp only [upTo?, hle, hsub, if_true, ih, Option.map_some]

/-- **An offset is met where a text can be cut in two**: not behind its end, nor inside a character. -/
theorem from?_eq_some_iff {cs rest : List Char} {offset : Nat} :
    from? cs offset = some rest ↔ ∃ before, before ++ rest = cs ∧ bytes before = offset := by
  constructor
  · intro h
    induction cs generalizing offset with
    | nil =>
      cases offset with
      | zero => exact ⟨[], Option.some.inj h.symm, rfl⟩
      | succ n => cases h
    | cons c cs ih =>
      cases offset with
      | zero => exact ⟨[], Option.some.inj h.symm, rfl⟩
      | succ n =>
        rw [from?] at h
        split at h
        · obtain ⟨before, hcs, hbytes⟩ := ih h
          refine ⟨c :: before, by rw [List.cons_append, hcs], ?_⟩
          rw [bytes_cons, hbytes]
          omega
        · cases h
  · rintro ⟨before, rfl, rfl⟩
    exact from?_append before rest

theorem slice?_append (before mid rest : List Char) :
    slice? (before ++ (mid ++ rest)) (bytes before) (bytes before + bytes mid) = some mid := by
  rw [slice?, if_pos (Nat.le_add_right _ _), from?_append, Nat.add_sub_cancel_left]
  exact upTo?_append mid rest

/-- Of two places the one with less behind it is farther on. -/
theorem lt_of_length_lt {cs rest rest' : List Char} {offset offset' : Nat}
    (h : from? cs offset = some rest) (h' : from? cs offset' = some rest')
    (hlt : rest'.length < rest.length) : offset < offset' := by
  obtain ⟨before, hcs, hbytes⟩ := from?_eq_some_iff.mp h
  obtain ⟨before', hcs', hbytes'⟩ := from?_eq_some_iff.mp h'
  rcases List.append_eq_append_iff.mp (hcs.trans hcs'.symm) with ⟨mid, hmid, hrest⟩ | ⟨mid, _, hrest⟩
  · cases mid with
    | nil =>
      rw [hrest] at hlt
      exact absurd hlt (Nat.lt_irrefl _)
    | cons c mid =>
      have hc := c.utf8Size_pos
      rw [← hbytes, ← hbytes', hmid, bytes_append, bytes_cons]
      omega
  · rw [hrest, List.length_append] at hlt
    omega

/-! ## Searches -/

/-- **A search answers with a place where the text can be cut**, the first at which the condition
holds. -/
theorem find?_append {stop : List Char → Bool} {cs before after : List Char}
    (h : cutAt? stop cs = some (before, after)) : find? stop cs = some (bytes before) := by
  rw [find?, h]
  rfl

theorem find?_eq_none {stop : List Char → Bool} {cs : List Char} (h : cutAt? stop cs = none) :
    find? stop cs = none := by
  rw [find?, h]
  rfl

/-- The first character of a kind stands behind the run of the others. -/
theorem cutAt?_headIs (p : Char → Bool) (cs : List Char) :
    cutAt? (headIs p) cs =
      if cs.any p then some (cs.takeWhile (!p ·), cs.dropWhile (!p ·)) else none := by
  induction cs with
  | nil => rfl
  | cons c cs ih =>
    rw [cutAt?, ih]
    by_cases hc : p c = true
    · simp [headIs, hc]
    · by_cases hany : cs.any p = true <;> simp [headIs, hc, hany]

/-- To begin with one character is to have it in front. -/
theorem startsWith_singleton_iff {d : Char} {cs : List Char} :
    startsWith [d] cs = true ↔ ∃ tail, cs = d :: tail := by
  rw [startsWith_eq_true_iff, List.prefix_iff_exists_eq_append]
  rfl

/-- **A search for one character** finds the first place where it stands. -/
theorem cutAt?_char_cases (d : Char) (cs : List Char) :
    (d ∉ cs ∧ cutAt? (startsWith [d]) cs = none) ∨
      ∃ before after, cs = before ++ d :: after ∧ d ∉ before ∧
        cutAt? (startsWith [d]) cs = some (before, d :: after) := by
  by_cases hd : d ∈ cs
  · obtain ⟨before, after, rfl, hbefore⟩ := List.eq_append_cons_of_mem hd
    refine .inr ⟨before, after, rfl, hbefore, cutAt?_startsWith (unbordered_singleton d) ?_ after⟩
    intro hheld
    exact hbefore (hheld.subset (List.mem_singleton_self d))
  · refine .inl ⟨hd, cutAt?_eq_none fun v hv => ?_⟩
    rw [← Bool.not_eq_true, startsWith_eq_true_iff]
    intro hbegins
    exact hd (hv.subset (hbegins.subset (List.mem_singleton_self d)))

/-- Lower case changes the length of no character. -/
theorem utf8Size_toLower (c : Char) : c.toLower.utf8Size = c.utf8Size := by
  unfold Char.toLower
  split
  · rename_i h
    have h1 : 65 ≤ c.val.toNat := UInt32.le_iff_toNat_le.mp h.1
    have h2 : c.val.toNat ≤ 90 := UInt32.le_iff_toNat_le.mp h.2
    have hc : c.utf8Size = 1 := by
      rw [Char.utf8Size_eq_one_iff, UInt32.le_iff_toNat_le]
      show c.val.toNat ≤ 127
      omega
    rw [hc, Char.utf8Size_eq_one_iff, UInt32.le_iff_toNat_le]
    dsimp only
    rw [UInt32.toNat_add]
    show (c.val.toNat + 32) % 4294967296 ≤ 127
    omega
  · rfl

theorem bytes_lower (cs : List Char) : bytes (lower cs) = bytes cs := by
  induction cs with
  | nil => rfl
  | cons c cs ih =>
    show c.toLower.utf8Size + bytes (lower cs) = _
    rw [utf8Size_toLower, ih, bytes_cons]

/-- A cut of a text in which every character was replaced. -/
theorem cutAt?_map (f : Char → Char) (stop : List Char → Bool) (cs : List Char) :
    cutAt? stop (cs.map f) =
      (cutAt? (fun cs => stop (cs.map f)) cs).map fun cut => (cut.1.map f, cut.2.map f) := by
  induction cs with
  | nil =>
    simp only [List.map_nil, cutAt?]
    split <;> rfl
  | cons c cs ih =>
    simp only [List.map_cons, cutAt?, ih]
    split
    · rfl
    · cases cutAt? (fun cs => stop (cs.map f)) cs <;> rfl

/-- **A search in the text in lower case** answers with the same offset. -/
theorem find?_lower (stop : List Char → Bool) (cs : List Char) :
    find? stop (lower cs) = find? (fun cs => stop (lower cs)) cs := by
  unfold find? lower
  rw [cutAt?_map]
  cases cutAt? (fun cs => stop (cs.map Char.toLower)) cs with
  | none => rfl
  | some cut => exact congrArg some (bytes_lower cut.1)

end BoundView.Text
