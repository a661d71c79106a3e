import BoundView.Proofs.Markup.Scanning
import BoundView.Proofs.Text.Numeral

/-!
# Which references are read

A **reference** is an ampersand, a name and a semicolon that ends at most ten bytes behind the
ampersand. What a name denotes is said in `Denotes`, for any notion of numeral: six names stand for a
character each, and a numeral stands for the character with its number. `Decodes` rewrites a text from
the left by such references. Both leave open which numerals count, and that is where the reader and
the usual reading part: the reader lets one plus sign stand before the digits.

Main statement: `decoded_iff`. The reader decodes by signed numerals, and a text in which no sign
stands where a numeral begins is decoded by plain ones.
-/

namespace BoundView.Markup

open BoundView.Text

/-- The characters that have a name. -/
def characters : List (List Char × Char) :=
  [("amp".toList, '&'), ("lt".toList, '<'), ("gt".toList, '>'), ("quot".toList, '"'),
    ("apos".toList, '\''), ("nbsp".toList, '\u00a0')]

/-- A numeral, or one behind a plus sign. -/
def SignedNumeral (radix : Nat) (digits : List Char) (n : Nat) : Prop :=
  Numeral radix digits n ∨ ∃ unsigned, digits = '+' :: unsigned ∧ Numeral radix unsigned n

/-- **What the name of a reference denotes**, where `numeral` says which digits write which number. -/
inductive Denotes (numeral : Nat → List Char → Nat → Prop) : List Char → Char → Prop
  | named {name : List Char} {c : Char} : (name, c) ∈ characters → Denotes numeral name c
  | decimal {digits : List Char} {c : Char} :
      numeral 10 digits c.toNat → Denotes numeral ('#' :: digits) c
  | hexadecimal {x : Char} {digits : List Char} {c : Char} :
      x = 'x' ∨ x = 'X' → numeral 16 digits c.toNat → Denotes numeral ('#' :: x :: digits) c

/-- A text goes on, behind an ampersand, with the name of a character and the first semicolon, which
stands at most ten bytes behind the ampersand; `rest` follows. -/
def Refers (numeral : Nat → List Char → Nat → Prop) (cs : List Char) (c : Char) (rest : List Char) :
    Prop :=
  ∃ name, cs = name ++ ';' :: rest ∧ ';' ∉ name ∧ bytes ('&' :: name) ≤ 10 ∧
    Denotes numeral name c

/-- **Rewriting from the left**: a reference becomes its character, and reading goes on behind it; any
other ampersand stays, and reading goes on right behind that. -/
inductive Decodes (numeral : Nat → List Char → Nat → Prop) : List Char → List Char → Prop
  | done : Decodes numeral [] []
  | plain {c : Char} {cs ds : List Char} :
      c ≠ '&' → Decodes numeral cs ds → Decodes numeral (c :: cs) (c :: ds)
  | reference {c : Char} {cs rest ds : List Char} :
      Refers numeral cs c rest → Decodes numeral rest ds → Decodes numeral ('&' :: cs) (c :: ds)
  | verbatim {cs ds : List Char} :
      (∀ c rest, ¬ Refers numeral cs c rest) → Decodes numeral cs ds →
        Decodes numeral ('&' :: cs) ('&' :: ds)

/-- No plus sign stands where the digits of a reference would begin. -/
structure Unsigned (cs : List Char) : Prop where
  decimal : ¬ "&#+".toList <:+: cs
  hexadecimal : ¬ "&#x+".toList <:+: cs
  capital : ¬ "&#X+".toList <:+: cs

/-! ## Names -/

theorem charOfCode?_eq_some_iff {n : Nat} {c : Char} : charOfCode? n = some c ↔ n = c.toNat := by
  unfold charOfCode?
  split
  · rename_i hvalid
    rw [Option.some_inj]
    constructor
    · rintro rfl
      rw [Char.ofNat, dif_pos hvalid]
      rfl
    · rintro rfl
      exact Char.ofNat_toNat c
  · rename_i hvalid
    simp only [reduceCtorEq, false_iff]
    rintro rfl
    exact hvalid c.valid

/-- A signed numeral begins with the sign or with a digit. -/
theorem SignedNumeral.head_mem {radix n : Nat} {c : Char} {cs : List Char}
    (h : SignedNumeral radix (c :: cs) n) : c ∈ '+' :: "0123456789abcdefABCDEF".toList := by
  rcases h with hnumeral | ⟨unsigned, heq, -⟩
  · exact List.mem_cons_of_mem '+' hnumeral.head_mem
  · cases heq
    exact List.mem_cons_self

/-- The reader's numbers are the signed numerals. -/
theorem code?_eq_some_iff {radix n : Nat} (h : radix ≤ 16) {digits : List Char} :
    code? radix digits = some n ↔ SignedNumeral radix digits n := by
  unfold code? SignedNumeral
  split
  · rename_i unsigned
    have hplus : ¬ Numeral radix ('+' :: unsigned) n := by
      intro hnumeral
      simpa using hnumeral.head_mem
    simp [number?_eq_some_iff h, hplus]
  · rename_i hplus
    have hnone : ¬ ∃ unsigned, digits = '+' :: unsigned ∧ Numeral radix unsigned n := by
      rintro ⟨unsigned, heq, -⟩
      exact hplus unsigned heq
    simp [number?_eq_some_iff h, hnone]

theorem bind_charOfCode?_eq_some_iff {radix : Nat} (h : radix ≤ 16) {digits : List Char} {c : Char} :
    (code? radix digits).bind charOfCode? = some c ↔ SignedNumeral radix digits c.toNat := by
  simp [Option.bind_eq_some_iff, code?_eq_some_iff h, charOfCode?_eq_some_iff]

/-- **The reader's names** are those that denote a character by signed numerals. -/
theorem named?_eq_some_iff {name : List Char} {c : Char} :
    named? name = some c ↔ Denotes SignedNumeral name c := by
  constructor
  · intro h
    unfold named? at h
    split at h
    case h_1 | h_2 | h_3 | h_4 | h_5 | h_6 =>
      cases h
      exact .named (by decide)
    case h_7 => exact .hexadecimal (.inl rfl) ((bind_charOfCode?_eq_some_iff (by omega)).mp h)
    case h_8 => exact .hexadecimal (.inr rfl) ((bind_charOfCode?_eq_some_iff (by omega)).mp h)
    case h_9 => exact .decimal ((bind_charOfCode?_eq_some_iff (by omega)).mp h)
    case h_10 => contradiction
  · intro h
    cases h with
    | named hmem =>
      simp only [characters, List.mem_cons, Prod.mk.injEq, List.not_mem_nil, or_false] at hmem
      rcases hmem with ⟨rfl, rfl⟩ | ⟨rfl, rfl⟩ | ⟨rfl, rfl⟩ | ⟨rfl, rfl⟩ | ⟨rfl, rfl⟩ | ⟨rfl, rfl⟩
      all_goals rfl
    | @decimal digits c hdigits =>
      -- No digit is the mark of the other radix.
      have hmark : ∀ x ds, digits = x :: ds → x ≠ 'x' ∧ x ≠ 'X' := by
        rintro x ds rfl
        have hmem := hdigits.head_mem
        constructor
        · rintro rfl
          simp at hmem
        · rintro rfl
          simp at hmem
      rw [← bind_charOfCode?_eq_some_iff (by omega)] at hdigits
      unfold named?
      split
      all_goals simp_all
    | @hexadecimal x digits c hx hdigits =>
      rw [← bind_charOfCode?_eq_some_iff (by omega)] at hdigits
      rcases hx with rfl | rfl
      · exact hdigits
      · exact hdigits

/-! ## References -/

variable {numeral : Nat → List Char → Nat → Prop} {cs ds rest : List Char} {c : Char}

/-- **The reference found** is the one that the text goes on with. -/
theorem reference?_eq_some_iff : reference? cs = some (c, rest) ↔ Refers SignedNumeral cs c rest := by
  have hbytes : ∀ name, bytes ('&' :: name) ≤ 10 ↔ bytes name < reach := by
    intro name
    have hone : '&'.utf8Size = 1 := rfl
    rw [bytes_cons, hone, reach]
    omega
  constructor
  · intro h
    by_cases hmem : ';' ∈ cs
    · obtain ⟨name, after, rfl, hname⟩ := List.eq_append_cons_of_mem hmem
      rw [reference?_append hname] at h
      split at h
      · rename_i hlt
        obtain ⟨d, hd, heq⟩ := Option.map_eq_some_iff.mp h
        cases heq
        exact ⟨name, rfl, hname, (hbytes name).mpr hlt, named?_eq_some_iff.mp hd⟩
      · contradiction
    · rw [reference?, dropWhile_semicolon hmem] at h
      contradiction
  · rintro ⟨name, rfl, hname, hreach, hdenotes⟩
    rw [reference?_append hname, if_pos ((hbytes name).mp hreach), named?_eq_some_iff.mpr hdenotes]
    rfl

/-! ## Rewriting -/

/-- **Decoding rewrites** by signed numerals. -/
theorem decodes_decode (cs : List Char) : Decodes SignedNumeral cs (decode cs) := by
  fun_induction decode cs with
  | case1 => exact .done
  | case2 rest d after hfound _ ih => exact .reference (reference?_eq_some_iff.mp hfound) ih
  | case3 rest hnone ih =>
    apply Decodes.verbatim _ ih
    intro d after hrefers
    rw [← reference?_eq_some_iff, hnone] at hrefers
    contradiction
  | case4 c rest hne ih => exact .plain hne ih

/-- Rewriting by signed numerals has no other outcome. -/
theorem Decodes.decode_eq (h : Decodes SignedNumeral cs ds) : decode cs = ds := by
  induction h with
  | done => exact decode_nil
  | plain hne _ ih => rw [decode_cons_of_ne hne, ih]
  | reference hrefers _ ih => rw [decode_reference (reference?_eq_some_iff.mpr hrefers), ih]
  | verbatim hnone _ ih =>
    rw [decode_ampersand, ih]
    cases hfound : reference? _ with
    | none => rfl
    | some found => exact absurd (reference?_eq_some_iff.mp hfound) (hnone found.1 found.2)

/-- Where two notions of numeral find the same references, they rewrite alike. -/
theorem Decodes.congr {numeral' : Nat → List Char → Nat → Prop} (h : Decodes numeral cs ds)
    (hrefers : ∀ tail, '&' :: tail <:+ cs →
      ∀ c rest, Refers numeral tail c rest ↔ Refers numeral' tail c rest) :
    Decodes numeral' cs ds := by
  induction h with
  | done => exact .done
  | plain hne _ ih =>
    apply Decodes.plain hne
    apply ih
    intro tail htail
    exact hrefers tail (htail.trans (List.suffix_cons _ _))
  | @reference c cs rest ds hfound _ ih =>
    apply Decodes.reference ((hrefers cs List.suffix_rfl c rest).mp hfound)
    apply ih
    intro tail htail
    apply hrefers tail
    obtain ⟨name, rfl, -⟩ := hfound
    exact htail.trans ⟨'&' :: name ++ [';'], by simp⟩
  | @verbatim cs ds hnone _ ih =>
    apply Decodes.verbatim
    · intro d after hfound
      exact hnone d after ((hrefers cs List.suffix_rfl d after).mpr hfound)
    · apply ih
      intro tail htail
      exact hrefers tail (htail.trans (List.suffix_cons _ _))

/-- In a name without a sign before digits, the sign makes no difference. -/
theorem Unsigned.denotes_iff {name after : List Char} (h : Unsigned ('&' :: (name ++ after))) :
    Denotes SignedNumeral name c ↔ Denotes Numeral name c := by
  constructor
  · intro hdenotes
    cases hdenotes with
    | named hmem => exact .named hmem
    | @decimal digits c hdigits =>
      rcases hdigits with hplain | ⟨unsigned, rfl, -⟩
      · exact .decimal hplain
      · exact absurd ⟨[], unsigned ++ after, by simp⟩ h.decimal
    | @hexadecimal x digits c hx hdigits =>
      rcases hdigits with hplain | ⟨unsigned, rfl, -⟩
      · exact .hexadecimal hx hplain
      · rcases hx with rfl | rfl
        · exact absurd ⟨[], unsigned ++ after, by simp⟩ h.hexadecimal
        · exact absurd ⟨[], unsigned ++ after, by simp⟩ h.capital
  · intro hdenotes
    cases hdenotes with
    | named hmem => exact .named hmem
    | decimal hdigits => exact .decimal (.inl hdigits)
    | hexadecimal hx hdigits => exact .hexadecimal hx (.inl hdigits)

theorem Unsigned.refers_iff (h : Unsigned ('&' :: cs)) :
    Refers SignedNumeral cs c rest ↔ Refers Numeral cs c rest := by
  unfold Refers
  apply exists_congr
  intro name
  apply and_congr_right
  rintro rfl
  rw [h.denotes_iff]

theorem Unsigned.of_not_mem (h : '+' ∉ cs) : Unsigned cs where
  decimal hsign := h (hsign.subset (by decide))
  hexadecimal hsign := h (hsign.subset (by decide))
  capital hsign := h (hsign.subset (by decide))

theorem Unsigned.of_suffix {part : List Char} (h : Unsigned cs) (hpart : part <:+ cs) : Unsigned part where
  decimal hsign := h.decimal (hsign.trans hpart.isInfix)
  hexadecimal hsign := h.hexadecimal (hsign.trans hpart.isInfix)
  capital hsign := h.capital (hsign.trans hpart.isInfix)

theorem decode_eq_iff : decode cs = ds ↔ Decodes SignedNumeral cs ds := by
  constructor
  · rintro rfl
    exact decodes_decode cs
  · exact Decodes.decode_eq

/-- An unsigned text is decoded by plain numerals. -/
theorem Unsigned.decode_eq_iff (h : Unsigned cs) : decode cs = ds ↔ Decodes Numeral cs ds := by
  rw [Markup.decode_eq_iff]
  constructor
  · intro hdecodes
    apply hdecodes.congr
    intro tail htail d after
    exact (h.of_suffix htail).refers_iff
  · intro hdecodes
    apply hdecodes.congr
    intro tail htail d after
    exact (h.of_suffix htail).refers_iff.symm

/-- **Which references are read.** Decoding rewrites a text by the references whose numerals may have a
plus sign; where no sign stands before digits, these are the references with plain numerals. -/
theorem decoded_iff (s t : String) :
    (decoded s = t ↔ Decodes SignedNumeral s.toList t.toList) ∧
      (Unsigned s.toList → (decoded s = t ↔ Decodes Numeral s.toList t.toList)) := by
  have hlists : decoded s = t ↔ decode s.toList = t.toList := by
    rw [decoded, ← String.toList_inj, String.toList_ofList]
  rw [hlists]
  exact ⟨decode_eq_iff, Unsigned.decode_eq_iff⟩

/-- A name, a number and an empty number in one text. -/
theorem decoded_iff_sample :
    Unsigned "&lt;&#98;&#;".toList ∧ Decodes Numeral "&lt;&#98;&#;".toList "<b&#;".toList := by
  have hunsigned : Unsigned "&lt;&#98;&#;".toList := .of_not_mem (by decide)
  have hname : reference? "lt;&#98;&#;".toList = some ('<', "&#98;&#;".toList) := by decide
  have hnumber : reference? "#98;&#;".toList = some ('b', "&#;".toList) := by decide
  have hempty : reference? "#;".toList = none := by decide
  have hdecode : decode "&lt;&#98;&#;".toList = "<b&#;".toList := by
    calc decode "&lt;&#98;&#;".toList
      _ = '<' :: decode ('&' :: "#98;&#;".toList) := decode_reference hname
      _ = '<' :: 'b' :: decode ('&' :: "#;".toList) := by rw [decode_reference hnumber]; rfl
      _ = '<' :: 'b' :: '&' :: decode ("#;".toList ++ []) := by rw [decode_ampersand hempty]; rfl
      _ = "<b&#;".toList := by rw [decode_append_of_not_mem (by decide), decode_nil]; rfl
  have hdecoded : decoded "&lt;&#98;&#;" = "<b&#;" := by
    rw [decoded, hdecode]
    rfl
  exact ⟨hunsigned, ((decoded_iff "&lt;&#98;&#;" "<b&#;").2 hunsigned).mp hdecoded⟩

/-- The sign of `&#+65;` is no digit, so the ampersand stays by plain numerals; it is decoded all the
same. -/
theorem sign_decoded :
    decoded "&#+65;" = "A" ∧ Decodes Numeral "&#+65;".toList "&#+65;".toList ∧
      ¬ Decodes Numeral "&#+65;".toList (decoded "&#+65;").toList := by
  have hfound : reference? "#+65;".toList = some ('A', []) := by decide
  have hdecoded : decoded "&#+65;" = "A" := by
    rw [decoded]
    exact congrArg String.ofList ((decode_reference hfound).trans (by rw [decode_nil]))
  have hnone : ∀ c rest, ¬ Refers Numeral "#+65;".toList c rest := by
    rintro c rest ⟨name, heq, hname, -, hdenotes⟩
    have hcut := (span_semicolon hname rest).1
    rw [← heq] at hcut
    have hname : name = ['#', '+', '6', '5'] := hcut.symm.trans (by decide)
    subst hname
    cases hdenotes with
    | named hmem => simp [characters] at hmem
    | decimal hdigits => simpa using hdigits.head_mem
    | hexadecimal hx => simp at hx
  have hkept : Decodes Numeral "&#+65;".toList "&#+65;".toList := by
    apply Decodes.verbatim hnone
    iterate 5 apply Decodes.plain (by decide)
    exact .done
  have hlost : ¬ Decodes Numeral "&#+65;".toList "A".toList := by
    intro hdecodes
    cases hdecodes with
    | reference hrefers => exact hnone _ _ hrefers
  rw [hdecoded]
  exact ⟨rfl, hkept, hlost⟩

end BoundView.Markup
