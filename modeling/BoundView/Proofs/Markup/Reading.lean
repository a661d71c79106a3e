import BoundView.Markup.Render
import BoundView.Proofs.Markup.Escaping
import BoundView.Proofs.Markup.WellFormed
import BoundView.Proofs.Text.Cut

/-!
# What is written is read

One reading step in front of the markup of one construct gives the token of that construct, and goes
on right behind it: a text (`read_text`), a comment (`read_comment`), a closing tag
(`read_closing`), an opening tag with its attributes (`read_opening`, `read_void`) and a raw element
as a whole (`read_raw`).

A text ends where markup begins, so it needs a **boundary** behind it.
-/

namespace BoundView.Text

theorem lower_eq_self {cs : List Char} (h : ∀ c ∈ cs, c.isUpper = false) : lower cs = cs := by
  have same : ∀ c ∈ cs, c.toLower = id c := by
    intro c hc
    have hupper := h c hc
    unfold Char.isUpper at hupper
    rw [decide_eq_false_iff_not] at hupper
    unfold Char.toLower
    rw [dif_neg hupper]
    rfl
  unfold lower
  rw [List.map_congr_left same, List.map_id]

theorem trim_eq_self {cs : List Char} (h : ∀ c ∈ cs, isBlank c = false) : trim cs = cs := by
  have drop : ∀ ds : List Char, (∀ c ∈ ds, isBlank c = false) → ds.dropWhile isBlank = ds := by
    intro ds hds
    cases ds with
    | nil => rfl
    | cons d ds =>
      rw [List.dropWhile_cons_of_neg]
      rw [hds d List.mem_cons_self]
      exact Bool.false_ne_true
  unfold trim
  rw [drop cs h, drop cs.reverse fun c hc => h c (List.mem_reverse.mp hc), List.reverse_reverse]

end BoundView.Text

namespace BoundView.Markup

open BoundView.Dom (Attribute Attributes Content Element)
open BoundView.Text (bytes)

/-! ## Cursors in front of known text -/

namespace Cursor

variable (offset : Nat)

theorem cutAt?_append {stop : List Char → Bool} {before after : List Char}
    (h : Text.cutAt? stop (before ++ after) = some (before, after)) :
    (Cursor.mk offset (before ++ after)).cutAt? stop =
      some (before, ⟨offset + bytes before, after⟩) := by
  unfold cutAt?
  rw [h]
  rfl

theorem takeWhile_append {keep : Char → Bool} {cs after : List Char} (hcs : ∀ c ∈ cs, keep c = true)
    (hafter : ∀ d ∈ after.head?, keep d = false) :
    (Cursor.mk offset (cs ++ after)).takeWhile keep = (cs, ⟨offset + bytes cs, after⟩) := by
  obtain ⟨htake, hdrop⟩ := Text.span_run hcs hafter
  unfold takeWhile
  dsimp only
  rw [htake, hdrop]

theorem skipBlank_of_not_blank {after : List Char}
    (hafter : ∀ d ∈ after.head?, Text.isBlank d = false) :
    (Cursor.mk offset after).skipBlank = ⟨offset, after⟩ := by
  unfold skipBlank
  show (takeWhile ⟨offset, [] ++ after⟩ Text.isBlank).2 = _
  rw [takeWhile_append offset (fun _ hc => absurd hc List.not_mem_nil) hafter]
  rfl

/-- Behind skipped blanks there is nothing to skip. -/
theorem skipBlank_skipBlank (c : Cursor) : c.skipBlank.skipBlank = c.skipBlank := by
  refine skipBlank_of_not_blank c.skipBlank.offset fun d hd => ?_
  obtain ⟨ds, hds⟩ := List.head?_eq_some_iff.mp hd
  exact isBlank_of_skipBlank hds

theorem drop_append (front tail : List Char) {n : Nat} (hn : front.length = n) :
    (Cursor.mk offset (front ++ tail)).drop n = ⟨offset + bytes front, tail⟩ := by
  subst hn
  unfold drop
  dsimp only
  rw [List.take_left, List.drop_left]

end Cursor

/-! ## Texts, comments and closing tags -/

/-- **A place where no text goes on**: the end, or the beginning of markup. -/
def Boundary (tail : List Char) : Prop := tail = [] ∨ startsMarkup tail = true

/-- No markup begins where there is no `<`. -/
theorem startsMarkup_of_head {c : Char} (hc : c ≠ '<') (cs : List Char) :
    startsMarkup (c :: cs) = false := by
  unfold startsMarkup
  split
  · rename_i heq
    exact absurd (List.cons.inj heq).1 hc
  · rfl

theorem cutAt_startsMarkup (offset : Nat) {cs tail : List Char} (hcs : '<' ∉ cs)
    (htail : Boundary tail) :
    (Cursor.mk offset (cs ++ tail)).cutAt startsMarkup = (cs, ⟨offset + bytes cs, tail⟩) := by
  have inside : ∀ v, v <:+ cs → v ≠ [] → ∀ rest, startsMarkup (v ++ rest) = false := by
    intro v hv hne rest
    obtain ⟨c, v, rfl⟩ := List.exists_cons_of_ne_nil hne
    refine startsMarkup_of_head (fun hc => hcs ?_) _
    rw [← hc]
    exact hv.subset List.mem_cons_self
  unfold Cursor.cutAt Text.cutAt
  rcases htail with rfl | htail
  · rw [List.append_nil, Text.cutAt?_eq_none]
    · rfl
    · intro v hv
      rcases List.eq_nil_or_concat v with rfl | ⟨w, c, rfl⟩
      · rfl
      · have h := inside _ hv (by simp) []
        rwa [List.append_nil] at h
  · rw [Text.cutAt?_eq htail fun v hv hne => inside v hv hne tail]
    rfl

/-- **A text is read up to the boundary behind it.** -/
theorem read_text (offset : Nat) {cs tail : List Char} (hne : cs ≠ []) (hcs : '<' ∉ cs)
    (htail : Boundary tail) :
    read ⟨offset, cs ++ tail⟩ = .token (.text cs) ⟨offset + bytes cs, tail⟩ := by
  obtain ⟨c, cs, rfl⟩ := List.exists_cons_of_ne_nil hne
  have hc : c ≠ '<' := fun h => hcs (h ▸ List.mem_cons_self)
  have hdrop : (Cursor.mk offset (c :: cs ++ tail)).drop 1 = ⟨offset + bytes [c], cs ++ tail⟩ :=
    Cursor.drop_append offset [c] (cs ++ tail) rfl
  have hread : read ⟨offset, c :: cs ++ tail⟩ = readText ⟨offset, c :: cs ++ tail⟩ := by
    unfold read
    split
    all_goals first | rfl | skip
    all_goals
      rename_i heq
      exact absurd (List.cons.inj heq).1 hc
  rw [hread]
  unfold readText
  rw [hdrop, cutAt_startsMarkup _ (fun h => hcs (List.mem_cons_of_mem _ h)) htail]
  dsimp only
  rw [Nat.add_assoc, ← Text.bytes_append]
  rfl

theorem unbordered_commentEnd : Text.Unbordered ['-', '-', '>'] := by
  unfold Text.Unbordered
  decide

/-- **A comment is read** when it does not hold the end of comments. -/
theorem read_comment (offset : Nat) {body : List Char} (hbody : ¬ ['-', '-', '>'] <:+: body)
    (tail : List Char) :
    read ⟨offset, "<!--".toList ++ (body ++ ("-->".toList ++ tail))⟩ =
      .token (.comment body) ⟨offset + bytes ("<!--".toList ++ body ++ "-->".toList), tail⟩ := by
  have hopen : (Cursor.mk offset ("<!--".toList ++ (body ++ ("-->".toList ++ tail)))).drop 4 =
      ⟨offset + bytes "<!--".toList, body ++ ("-->".toList ++ tail)⟩ :=
    Cursor.drop_append offset "<!--".toList _ rfl
  have hcut : (Cursor.mk (offset + bytes "<!--".toList) (body ++ ("-->".toList ++ tail))).cutAt?
      (Text.startsWith ['-', '-', '>']) = some (body, ⟨_, "-->".toList ++ tail⟩) :=
    Cursor.cutAt?_append _ (Text.cutAt?_startsWith unbordered_commentEnd hbody tail)
  show readComment _ = _
  unfold readComment
  rw [hopen, hcut]
  dsimp only
  rw [Cursor.drop_append (n := 3) _ "-->".toList tail rfl, Text.bytes_append, Text.bytes_append,
    Nat.add_assoc, Nat.add_assoc, Nat.add_assoc]

theorem isTagLetter_iff {c : Char} :
    isTagLetter c = true ↔ c.isLower = true ∨ c.isDigit = true ∨ c = ':' ∨ c = '-' := by
  unfold isTagLetter
  simp only [Bool.or_eq_true, beq_iff_eq, or_assoc]

/-- The letters of a tag are read as such, are of lower case, and end nothing. -/
theorem IsTag.letter {tag : String} (h : IsTag tag) {c : Char} (hc : c ∈ tag.toList) :
    isTagNameChar c = true ∧ c.isUpper = false ∧ Text.isBlank c = false ∧ c ≠ '>' ∧ c ≠ '<' := by
  have hletter := isTagLetter_iff.mp (List.all_eq_true.mp h.letters c hc)
  have hcode : c.val.toNat = 45 ∨ (48 ≤ c.val.toNat ∧ c.val.toNat ≤ 58) ∨
      (97 ≤ c.val.toNat ∧ c.val.toNat ≤ 122) := by
    rcases hletter with hlower | hdigit | rfl | rfl
    · obtain ⟨hge, hle⟩ := Bool.and_eq_true_iff.mp hlower
      have h1 : 97 ≤ c.val.toNat := UInt32.le_iff_toNat_le.mp (of_decide_eq_true hge)
      have h2 : c.val.toNat ≤ 122 := UInt32.le_iff_toNat_le.mp (of_decide_eq_true hle)
      exact .inr (.inr ⟨h1, h2⟩)
    · obtain ⟨hge, hle⟩ := Bool.and_eq_true_iff.mp hdigit
      have h1 : 48 ≤ c.val.toNat := UInt32.le_iff_toNat_le.mp (of_decide_eq_true hge)
      have h2 : c.val.toNat ≤ 57 := UInt32.le_iff_toNat_le.mp (of_decide_eq_true hle)
      exact .inr (.inl ⟨h1, by omega⟩)
    · exact .inr (.inl (by decide))
    · exact .inl (by decide)
  refine ⟨?_, ?_, ?_, ?_, ?_⟩
  · show (c.isUpper || c.isLower || c.isDigit || c == '-' || c == ':') = true
    simp only [Bool.or_eq_true, beq_iff_eq]
    rcases hletter with h | h | h | h
    · exact .inl (.inl (.inl (.inr h)))
    · exact .inl (.inl (.inr h))
    · exact .inr h
    · exact .inl (.inr h)
  · unfold Char.isUpper
    rw [decide_eq_false_iff_not]
    simp only [ge_iff_le, UInt32.le_iff_toNat_le]
    intro hupper
    have h1 : 65 ≤ c.val.toNat := hupper.1
    have h2 : c.val.toNat ≤ 90 := hupper.2
    omega
  · unfold Text.isBlank
    have hn : c.toNat = c.val.toNat := rfl
    simp only [hn, Bool.or_eq_false_iff, Bool.and_eq_false_iff, decide_eq_false_iff_not,
      beq_eq_false_iff_ne, ne_eq]
    omega
  · rintro rfl
    revert hcode
    decide
  · rintro rfl
    revert hcode
    decide

theorem IsTag.lower {tag : String} (h : IsTag tag) : Text.lower tag.toList = tag.toList :=
  Text.lower_eq_self fun _ hc => (h.letter hc).2.1

/-- A tag is its first letter, of lower case, and the letters behind it. -/
theorem IsTag.exists_cons {tag : String} (h : IsTag tag) :
    ∃ c cs, tag.toList = c :: cs ∧ c.isAlpha = true := by
  have hfirst := h.first
  cases hcs : tag.toList with
  | nil =>
    rw [hcs] at hfirst
    cases hfirst
  | cons c cs =>
    rw [hcs] at hfirst
    have hlower : c.isLower = true := hfirst
    refine ⟨c, cs, rfl, ?_⟩
    show (c.isUpper || c.isLower) = true
    rw [hlower, Bool.or_true]

/-- The letters of a name, in any case, are not blank and end no tag. -/
theorem IsTagName.letter {name : String} (h : IsTagName name) {c : Char} (hc : c ∈ name.toList) :
    isTagNameChar c = true ∧ Text.isBlank c = false ∧ c ≠ '>' := by
  have hclass := List.all_eq_true.mp h.letters c hc
  have hcode : c.toNat = 45 ∨ (48 ≤ c.toNat ∧ c.toNat ≤ 58) ∨ (65 ≤ c.toNat ∧ c.toNat ≤ 90) ∨
      (97 ≤ c.toNat ∧ c.toNat ≤ 122) := by
    have hkind := hclass
    unfold isTagNameChar Char.isAlphanum Char.isAlpha Char.isUpper Char.isLower Char.isDigit at hkind
    simp only [Bool.or_eq_true, Bool.and_eq_true, decide_eq_true_eq, beq_iff_eq, ge_iff_le,
      UInt32.le_iff_toNat_le] at hkind
    rcases hkind with (((hupper | hlower) | hdigit) | rfl) | rfl
    · exact .inr (.inr (.inl hupper))
    · exact .inr (.inr (.inr hlower))
    · exact .inr (.inl ⟨hdigit.1, Nat.le_succ_of_le hdigit.2⟩)
    · exact .inl rfl
    · exact .inr (.inl (by decide))
  refine ⟨hclass, ?_, ?_⟩
  · unfold Text.isBlank
    simp only [Bool.or_eq_false_iff, Bool.and_eq_false_iff, decide_eq_false_iff_not,
      beq_eq_false_iff_ne, ne_eq]
    omega
  · rintro rfl
    revert hcode
    decide

theorem IsTagName.exists_cons {name : String} (h : IsTagName name) :
    ∃ c cs, name.toList = c :: cs ∧ c.isAlpha = true := by
  have hfirst := h.first
  cases hcs : name.toList with
  | nil =>
    rw [hcs] at hfirst
    cases hfirst
  | cons c cs =>
    rw [hcs] at hfirst
    exact ⟨c, cs, rfl, hfirst⟩

/-- A tag is a name. -/
theorem IsTag.isTagName {tag : String} (h : IsTag tag) : IsTagName tag := by
  obtain ⟨c, cs, htag, hc⟩ := h.exists_cons
  refine ⟨?_, List.all_eq_true.mpr fun d hd => (h.letter hd).1⟩
  rw [htag]
  exact hc

/-- **A closing tag is read** in any case of letters, with its own place. -/
theorem read_closingTag (offset : Nat) {name : String} (h : IsTagName name) (tail : List Char) :
    read ⟨offset, renderClosing name ++ tail⟩ =
      .token (.closing (Text.lowercase name) offset)
        ⟨offset + bytes (renderClosing name), tail⟩ := by
  have hopen : (Cursor.mk offset (renderClosing name ++ tail)).drop 2 =
      ⟨offset + bytes ['<', '/'], name.toList ++ (['>'] ++ tail)⟩ := by
    have hsplit : renderClosing name ++ tail = ['<', '/'] ++ (name.toList ++ (['>'] ++ tail)) := by
      unfold renderClosing
      simp only [List.cons_append, List.append_assoc, List.nil_append]
    rw [hsplit]
    exact Cursor.drop_append offset ['<', '/'] _ rfl
  have hcut : (Cursor.mk (offset + bytes ['<', '/']) (name.toList ++ (['>'] ++ tail))).cutAt?
      (Text.startsWith ['>']) =
        some (name.toList, ⟨offset + bytes ['<', '/'] + bytes name.toList, ['>'] ++ tail⟩) := by
    refine Cursor.cutAt?_append _ (Text.cutAt?_startsWith (Text.unbordered_singleton '>') ?_ tail)
    intro hfound
    exact (h.letter (hfound.subset (List.mem_singleton_self '>'))).2.2 rfl
  have htrim : Text.trim name.toList = name.toList :=
    Text.trim_eq_self fun c hc => (h.letter hc).2.1
  show readClosing _ = _
  unfold readClosing
  rw [hopen, hcut]
  dsimp only
  rw [htrim, Cursor.drop_append (n := 1) _ ['>'] tail rfl, Nat.add_assoc, Nat.add_assoc,
    ← Text.bytes_append, ← Text.bytes_append]
  rfl

/-- **A closing tag is read** as the tag it closes. -/
theorem read_closing (offset : Nat) {tag : String} (h : IsTag tag) (tail : List Char) :
    read ⟨offset, renderClosing tag ++ tail⟩ =
      .token (.closing tag offset) ⟨offset + bytes (renderClosing tag), tail⟩ := by
  have hread := read_closingTag offset h.isTagName tail
  unfold Text.lowercase at hread
  rwa [h.lower, String.ofList_toList] at hread

/-! ## Attributes -/

/-- At its `>` a tag ends. -/
theorem readAttributes_end (start : Nat) {c : Cursor} {ds : List Char}
    (hrest : c.skipBlank.rest = '>' :: ds) (before : Attributes) :
    readAttributes start c before = (before, .ok (false, c.skipBlank.drop 1)) := by
  rw [readAttributes]
  split
  · rename_i heq
    rw [hrest] at heq
    cases heq
  · rename_i d ds' heq
    rw [hrest] at heq
    cases heq
    rw [dif_pos rfl]

/-- One attribute is read, then the others. -/
theorem readAttributes_attribute (start : Nat) {c next : Cursor} {d : Char} {ds : List Char}
    {name : String} {value : List Char} (hrest : c.skipBlank.rest = d :: ds) (hend : d ≠ '>')
    (hslash : d ≠ '/') (hread : readAttribute c.skipBlank = .ok (name, value, next))
    (before : Attributes) :
    readAttributes start c before =
      readAttributes start next (before.addNew name (String.ofList value)) := by
  rw [readAttributes]
  split
  · rename_i heq
    rw [hrest] at heq
    cases heq
  · rename_i d' ds' heq
    rw [hrest] at heq
    cases heq
    rw [dif_neg hend, dif_neg hslash]
    split
    · rename_i heq
      rw [hread] at heq
      cases heq
    · rename_i heq
      rw [hread] at heq
      cases heq
      rfl

theorem isAttributeNameChar_eq_false {d : Char} (h : d = ' ' ∨ d = '>' ∨ d = '=') :
    isAttributeNameChar d = false := by
  rcases h with rfl | rfl | rfl <;> decide

theorem not_blank_of_isAttributeNameChar {d : Char} (h : isAttributeNameChar d = true) :
    Text.isBlank d = false ∧ d ≠ '=' ∧ d ≠ '>' ∧ d ≠ '/' := by
  unfold isAttributeNameChar at h
  simp only [Bool.and_eq_true, Bool.not_eq_true', bne_iff_ne, ne_eq] at h
  exact ⟨h.1.1.1, h.1.1.2, h.1.2, h.2⟩

theorem IsAttributeName.keep {name : String} (h : IsAttributeName name) :
    ∀ c ∈ name.toList, isAttributeNameChar c = true :=
  List.all_eq_true.mp h.letters

theorem IsAttributeName.lower_eq {name : String} (h : IsAttributeName name) :
    Text.lower name.toList = name.toList := by
  refine Text.lower_eq_self fun c hc => ?_
  rw [← Bool.not_eq_true]
  exact List.any_eq_false.mp h.lower c hc

/-- A name begins with one of its letters, which is none of the signs around it. -/
theorem IsAttributeName.exists_cons {name : String} (h : IsAttributeName name) :
    ∃ d ds, name.toList = d :: ds ∧ Text.isBlank d = false ∧ d ≠ '=' ∧ d ≠ '>' ∧ d ≠ '/' := by
  obtain ⟨d, ds, hname⟩ := List.exists_cons_of_ne_nil h.nonempty
  refine ⟨d, ds, hname, not_blank_of_isAttributeNameChar (h.keep d ?_)⟩
  rw [hname]
  exact List.mem_cons_self

/-- An attribute without a value: its name, and no equals sign behind it. -/
theorem readAttribute_bare (offset : Nat) {name : String} (h : IsAttributeName name)
    {after : List Char} (hstop : ∀ d ∈ after.head?, isAttributeNameChar d = false)
    (hequals : (Cursor.mk (offset + bytes name.toList) after).skipBlank.rest.head? ≠ some '=') :
    readAttribute ⟨offset, name.toList ++ after⟩ =
      .ok (name, [], (Cursor.mk (offset + bytes name.toList) after).skipBlank) := by
  unfold readAttribute
  rw [Cursor.takeWhile_append offset h.keep hstop]
  dsimp only
  rw [h.lower_eq, String.ofList_toList]
  split
  · rename_i heq
    rw [heq] at hequals
    exact absurd rfl hequals
  · rfl

/-- A value in quotes, up to the quote behind it. -/
theorem readValue_quoted (offset : Nat) (name : String) (value after : List Char) :
    readValue name ⟨offset, ['"'] ++ (escape value ++ (['"'] ++ after))⟩ =
      .ok (value, ⟨offset + bytes (['"'] ++ escape value ++ ['"']), after⟩) := by
  have hquote : (Cursor.mk offset (['"'] ++ (escape value ++ (['"'] ++ after)))).skipBlank =
      ⟨offset, ['"'] ++ (escape value ++ (['"'] ++ after))⟩ := by
    refine Cursor.skipBlank_of_not_blank offset fun d hd => ?_
    cases hd
    rfl
  have hcut : (Cursor.mk (offset + bytes ['"']) (escape value ++ (['"'] ++ after))).cutAt?
      (Text.startsWith ['"']) =
        some (escape value, ⟨offset + bytes ['"'] + bytes (escape value), ['"'] ++ after⟩) := by
    refine Cursor.cutAt?_append _ (Text.cutAt?_startsWith (Text.unbordered_singleton '"') ?_ after)
    intro hfound
    exact (ne_of_mem_escape (hfound.subset (List.mem_singleton_self '"'))).2 rfl
  unfold readValue
  rw [hquote]
  show (if '"' = '"' ∨ '"' = '\'' then _ else _) = _
  rw [if_pos (Or.inl rfl), Cursor.drop_append (n := 1) offset ['"'] _ rfl, hcut]
  dsimp only
  rw [Cursor.drop_append (n := 1) _ ['"'] after rfl, decode_escape, Text.bytes_append,
    Text.bytes_append, Nat.add_assoc, Nat.add_assoc, Nat.add_assoc]

/-- An attribute with a value in quotes. -/
theorem readAttribute_quoted (offset : Nat) {name : String} (h : IsAttributeName name)
    (value after : List Char) :
    readAttribute ⟨offset, name.toList ++ (['='] ++ (['"'] ++ (escape value ++ (['"'] ++ after))))⟩ =
      .ok (name, value,
        ⟨offset + bytes (name.toList ++ (['='] ++ (['"'] ++ escape value ++ ['"']))), after⟩) := by
  have hequals : ∀ d ∈ (['='] ++ (['"'] ++ (escape value ++ (['"'] ++ after)))).head?,
      isAttributeNameChar d = false := by
    intro d hd
    cases hd
    rfl
  have hskip : (Cursor.mk (offset + bytes name.toList)
      (['='] ++ (['"'] ++ (escape value ++ (['"'] ++ after))))).skipBlank =
        ⟨offset + bytes name.toList, ['='] ++ (['"'] ++ (escape value ++ (['"'] ++ after)))⟩ := by
    refine Cursor.skipBlank_of_not_blank _ fun d hd => ?_
    cases hd
    rfl
  unfold readAttribute
  rw [Cursor.takeWhile_append offset h.keep hequals]
  dsimp only
  rw [h.lower_eq, String.ofList_toList, hskip]
  show Except.map _ (readValue name _) = _
  rw [Cursor.drop_append (n := 1) _ ['='] _ rfl, readValue_quoted]
  unfold Except.map
  dsimp only
  rw [Text.bytes_append _ (['='] ++ _), Text.bytes_append ['='], Nat.add_assoc, Nat.add_assoc]

/-- What stands behind an attribute: blanks in front of the next one, or the end of the tag. -/
theorem head_renderAttributes (attributes : Attributes) (tail : List Char) :
    ∀ d ∈ (attributes.flatMap renderAttribute ++ (['>'] ++ tail)).head?,
      isAttributeNameChar d = false := by
  intro d hd
  apply isAttributeNameChar_eq_false
  cases attributes with
  | nil =>
    cases hd
    exact .inr (.inl rfl)
  | cons a rest =>
    cases hd
    exact .inl rfl

/-- Behind the blank of an attribute stands its name. -/
theorem skipBlank_renderAttribute (offset : Nat) {a : Attribute} (h : IsAttributeName a.name)
    (after : List Char) :
    (Cursor.mk offset (renderAttribute a ++ after)).skipBlank =
      ⟨offset + bytes [' '], a.name.toList ++
        ((if a.value.isEmpty then [] else ['='] ++ (['"'] ++ escape a.value.toList ++ ['"'])) ++
          after)⟩ := by
  obtain ⟨d, ds, hname, hd, _⟩ := h.exists_cons
  have hsplit : renderAttribute a ++ after = [' '] ++ (a.name.toList ++
      ((if a.value.isEmpty then [] else ['='] ++ (['"'] ++ escape a.value.toList ++ ['"'])) ++
        after)) := by
    unfold renderAttribute
    simp only [List.cons_append, List.append_assoc, List.nil_append]
  have hblank : ∀ c ∈ [' '], Text.isBlank c = true := List.forall_mem_singleton.mpr rfl
  unfold Cursor.skipBlank
  rw [hsplit, Cursor.takeWhile_append offset hblank]
  intro c hc
  rw [hname] at hc
  cases hc
  exact hd

/-- No equals sign stands behind a complete attribute. -/
theorem head_skipBlank_renderAttributes {attributes : Attributes}
    (h : ∀ a ∈ attributes, IsAttributeName a.name) (tail : List Char) (offset : Nat) :
    (Cursor.mk offset (attributes.flatMap renderAttribute ++ (['>'] ++ tail))).skipBlank.rest.head? ≠
      some '=' := by
  cases attributes with
  | nil =>
    rw [List.flatMap_nil, List.nil_append, Cursor.skipBlank_of_not_blank]
    · intro heq
      exact absurd (Option.some.inj heq) (by decide)
    · intro d hd
      cases hd
      rfl
  | cons a rest =>
    have ha := h a List.mem_cons_self
    obtain ⟨d, ds, hname, _, hd, _⟩ := ha.exists_cons
    rw [List.flatMap_cons, List.append_assoc, skipBlank_renderAttribute offset ha, hname]
    intro heq
    exact hd (Option.some.inj heq)

/-- **One written attribute is read**, and what follows it comes next. -/
theorem readAttribute_render (offset : Nat) {a : Attribute} (h : IsAttributeName a.name)
    {after : List Char} (hstop : ∀ d ∈ after.head?, isAttributeNameChar d = false)
    (hequals : ∀ o, (Cursor.mk o after).skipBlank.rest.head? ≠ some '=') :
    ∃ next, readAttribute (Cursor.mk offset (renderAttribute a ++ after)).skipBlank =
        .ok (a.name, a.value.toList, next) ∧
      next.skipBlank = (Cursor.mk (offset + bytes (renderAttribute a)) after).skipBlank := by
  rw [skipBlank_renderAttribute offset h]
  by_cases hvalue : a.value.isEmpty = true
  · have hempty : a.value.toList = [] := by
      rw [String.isEmpty_iff.mp hvalue]
      rfl
    have hbytes : bytes (renderAttribute a) = bytes [' '] + bytes a.name.toList := by
      unfold renderAttribute
      rw [if_pos hvalue, List.append_nil]
      rfl
    rw [if_pos hvalue, List.nil_append, hempty, hbytes, ← Nat.add_assoc]
    exact ⟨_, readAttribute_bare _ h hstop (hequals _), Cursor.skipBlank_skipBlank _⟩
  · have hbytes : bytes (renderAttribute a) = bytes [' '] +
        bytes (a.name.toList ++ (['='] ++ (['"'] ++ escape a.value.toList ++ ['"']))) := by
      unfold renderAttribute
      rw [if_neg hvalue]
      rfl
    rw [if_neg hvalue, hbytes, ← Nat.add_assoc]
    simp only [List.append_assoc]
    have hread := readAttribute_quoted (offset + bytes [' ']) h a.value.toList after
    simp only [List.append_assoc] at hread
    exact ⟨_, hread, rfl⟩

end BoundView.Markup

namespace BoundView.Dom.Attributes

theorem addNew_of_not_mem {attributes : Attributes} {name : String} (hne : name ≠ "")
    (hnew : name ∉ attributes.names) (value : String) :
    attributes.addNew name value = attributes ++ [⟨name, value⟩] := by
  unfold addNew
  rw [if_neg]
  rw [get?_eq_none_iff.mpr hnew, Option.isSome_none, Bool.or_false, String.isEmpty_iff]
  exact hne

end BoundView.Dom.Attributes

namespace BoundView.Markup

open BoundView.Dom (Attribute Attributes Content Element)
open BoundView.Text (bytes)

/-- **The attributes of a tag are read** in their order, up to the end of the tag. -/
theorem readAttributes_render (start : Nat) {attributes : Attributes} (before : Attributes)
    (h : ∀ a ∈ attributes, IsAttributeName a.name)
    (hdistinct : (before ++ attributes).names.Nodup) (tail : List Char) (offset : Nat) {c : Cursor}
    (hc : c.skipBlank =
      (Cursor.mk offset (attributes.flatMap renderAttribute ++ (['>'] ++ tail))).skipBlank) :
    readAttributes start c before = (before ++ attributes,
      .ok (false, ⟨offset + bytes (attributes.flatMap renderAttribute ++ ['>']), tail⟩)) := by
  induction attributes generalizing before offset c with
  | nil =>
    have hend : (Cursor.mk offset (['>'] ++ tail)).skipBlank = ⟨offset, ['>'] ++ tail⟩ := by
      refine Cursor.skipBlank_of_not_blank offset fun d hd => ?_
      cases hd
      rfl
    rw [List.flatMap_nil, List.nil_append, hend] at hc
    have hrest : c.skipBlank.rest = '>' :: tail := by rw [hc]; rfl
    rw [readAttributes_end start hrest, hc, Cursor.drop_append (n := 1) offset ['>'] tail rfl,
      List.append_nil, List.flatMap_nil, List.nil_append]
  | cons a attributes ih =>
    have ha := h a List.mem_cons_self
    have hothers : ∀ b ∈ attributes, IsAttributeName b.name :=
      fun b hb => h b (List.mem_cons_of_mem _ hb)
    obtain ⟨d, ds, hname, _, _, hend, hslash⟩ := ha.exists_cons
    have hassoc : before ++ a :: attributes = before ++ [a] ++ attributes := by
      rw [List.append_assoc, List.singleton_append]
    have hne : a.name ≠ "" := by
      intro he
      rw [he] at ha
      exact ha.nonempty rfl
    have hnew : before.addNew a.name (String.ofList a.value.toList) = before ++ [a] := by
      have hnot : a.name ∉ before.names := by
        intro hmem
        unfold Attributes.names at hdistinct hmem
        rw [List.map_append] at hdistinct
        exact (List.nodup_append.mp hdistinct).2.2 _ hmem _
          (List.mem_map_of_mem List.mem_cons_self) rfl
      rw [Attributes.addNew_of_not_mem hne hnot, String.ofList_toList]
    rw [List.flatMap_cons, List.append_assoc] at hc
    have hrest : ∃ ds', c.skipBlank.rest = d :: ds' := by
      rw [hc, skipBlank_renderAttribute offset ha, hname]
      exact ⟨_, rfl⟩
    obtain ⟨ds', hrest⟩ := hrest
    obtain ⟨next, hread, hnext⟩ := readAttribute_render offset ha
      (head_renderAttributes attributes tail) (head_skipBlank_renderAttributes hothers tail)
    have hbytes : bytes (renderAttribute a ++ attributes.flatMap renderAttribute ++ ['>']) =
        bytes (renderAttribute a) + bytes (attributes.flatMap renderAttribute ++ ['>']) := by
      rw [List.append_assoc, Text.bytes_append]
    rw [← hc] at hread
    rw [hassoc] at hdistinct ⊢
    rw [readAttributes_attribute start hrest hend hslash hread, hnew,
      ih _ hothers hdistinct _ hnext, List.flatMap_cons, hbytes, Nat.add_assoc]

/-! ## Opening tags and raw elements -/

/-- Behind `<` a letter begins an opening tag. -/
theorem read_of_isAlpha (offset : Nat) {c : Char} (hc : c.isAlpha = true) (tail : List Char) :
    read ⟨offset, '<' :: c :: tail⟩ = readOpening ⟨offset, '<' :: c :: tail⟩ := by
  unfold read
  split
  · rename_i heq
    cases heq
    cases hc
  · rename_i heq
    cases heq
    cases hc
  · rename_i heq
    cases heq
    cases hc
  · rename_i heq
    cases heq
    rw [if_pos hc]
  · rename_i hother
    exact absurd rfl (hother c tail)

/-- **An opening tag is read** with its tag and its attributes. What comes of it depends on the kind
of the element. -/
theorem readOpening_render (offset : Nat) {e : Element} {children : Forest Content}
    (h : IsElement e children) (tail : List Char) :
    read ⟨offset, renderOpening e ++ tail⟩ =
      if isVoid e.tag then
        .token (.leaf e.tag e.attributes []) ⟨offset + bytes (renderOpening e), tail⟩
      else if isRaw e.tag then
        readRaw e.tag e.attributes offset ⟨offset + bytes (renderOpening e), tail⟩
      else .token (.opening e.tag e.attributes) ⟨offset + bytes (renderOpening e), tail⟩ := by
  obtain ⟨c, cs, htag, hc⟩ := h.tag.exists_cons
  have hsplit : renderOpening e ++ tail = ['<'] ++ (e.tag.toList ++
      (e.attributes.flatMap renderAttribute ++ (['>'] ++ tail))) := by
    unfold renderOpening
    simp only [List.cons_append, List.append_assoc, List.nil_append]
  have hname : ((Cursor.mk offset (renderOpening e ++ tail)).drop 1).takeWhile isTagNameChar =
      (e.tag.toList, ⟨offset + bytes ['<'] + bytes e.tag.toList,
        e.attributes.flatMap renderAttribute ++ (['>'] ++ tail)⟩) := by
    rw [hsplit, Cursor.drop_append (n := 1) offset ['<'] _ rfl]
    refine Cursor.takeWhile_append _ (fun d hd => (h.tag.letter hd).1) fun d hd => ?_
    have hend : d = ' ' ∨ d = '>' := by
      cases hattributes : e.attributes with
      | nil =>
        rw [hattributes] at hd
        cases hd
        exact .inr rfl
      | cons a rest =>
        rw [hattributes] at hd
        cases hd
        exact .inl rfl
    rcases hend with rfl | rfl <;> decide
  have hattributes := readAttributes_render offset [] h.names h.distinct tail
    (offset + bytes ['<'] + bytes e.tag.toList) rfl
  have hbytes : offset + bytes ['<'] + bytes e.tag.toList +
      bytes (e.attributes.flatMap renderAttribute ++ ['>']) = offset + bytes (renderOpening e) := by
    unfold renderOpening
    simp only [Text.bytes_append, Text.bytes_cons, Text.bytes_nil, List.cons_append, Nat.add_assoc,
      Nat.add_zero]
  have hread : read ⟨offset, renderOpening e ++ tail⟩ =
      readOpening ⟨offset, renderOpening e ++ tail⟩ := by
    rw [hsplit, htag]
    exact read_of_isAlpha offset hc _
  rw [hread]
  unfold readOpening
  rw [hname]
  dsimp only
  rw [hattributes, hbytes, h.tag.lower, String.ofList_toList]
  rfl

theorem closesRaw_iff {tag : String} {cs : List Char} :
    closesRaw tag cs = true ↔ '<' :: '/' :: tag.toList <+: Text.lower cs := by
  unfold closesRaw Text.lower
  rw [List.prefix_iff_eq_take, ← List.map_take, beq_iff_eq]
  exact ⟨Eq.symm, Eq.symm⟩

/-- The closing tag of a raw element does not begin inside itself. -/
theorem unbordered_closing {tag : String} (h : IsTag tag) :
    Text.Unbordered ('<' :: '/' :: tag.toList) := by
  refine Text.unbordered_cons fun hmem => ?_
  rcases List.mem_cons.mp hmem with heq | hmem
  · exact absurd heq (by decide)
  · exact (h.letter hmem).2.2.2.2 rfl

/-- **The content of a raw element is read** up to its closing tag, which it does not hold. -/
theorem readRaw_render (attributes : Attributes) (start offset : Nat) {tag : String} (h : IsTag tag)
    {content : List Char} (hcontent : ¬ '<' :: '/' :: tag.toList <:+: Text.lower content)
    (tail : List Char) :
    readRaw tag attributes start ⟨offset, content ++ (renderClosing tag ++ tail)⟩ =
      .token (.leaf tag attributes (if isVerbatim tag then content else decode content))
        ⟨offset + bytes (content ++ renderClosing tag), tail⟩ := by
  have hclosing : renderClosing tag ++ tail = '<' :: '/' :: tag.toList ++ (['>'] ++ tail) := by
    unfold renderClosing
    simp only [List.cons_append, List.append_assoc, List.nil_append]
  have hlower : Text.lower (renderClosing tag ++ tail) =
      '<' :: '/' :: tag.toList ++ Text.lower (['>'] ++ tail) := by
    rw [hclosing, Text.lower_append]
    show '<' :: '/' :: Text.lower tag.toList ++ _ = _
    rw [h.lower]
  have hcut : (Cursor.mk offset (content ++ (renderClosing tag ++ tail))).cutAt? (closesRaw tag) =
      some (content, ⟨offset + bytes content, renderClosing tag ++ tail⟩) := by
    refine Cursor.cutAt?_append offset (Text.cutAt?_eq ?_ fun v hv hne => ?_)
    · rw [closesRaw_iff, hlower]
      exact List.prefix_append _ _
    · rw [← Bool.not_eq_true, closesRaw_iff, Text.lower_append, hlower]
      refine Text.not_prefix_of_unbordered (unbordered_closing h) hcontent (hv.map _) ?_
      intro hnil
      exact hne (List.map_eq_nil_iff.mp hnil)
  have hend : (Cursor.mk (offset + bytes content) (renderClosing tag ++ tail)).cutAt?
      (Text.startsWith ['>']) = some ('<' :: '/' :: tag.toList,
        ⟨offset + bytes content + bytes ('<' :: '/' :: tag.toList), ['>'] ++ tail⟩) := by
    rw [hclosing]
    refine Cursor.cutAt?_append _ (Text.cutAt?_startsWith (Text.unbordered_singleton '>') ?_ tail)
    intro hfound
    have hmem : '>' ∈ tag.toList := by
      rcases List.mem_cons.mp (hfound.subset (List.mem_singleton_self '>')) with heq | hmem
      · exact absurd heq (by decide)
      · rcases List.mem_cons.mp hmem with heq | hmem
        · exact absurd heq (by decide)
        · exact hmem
    exact (h.letter hmem).2.2.2.1 rfl
  unfold readRaw
  rw [hcut]
  dsimp only
  rw [hend]
  dsimp only
  rw [Cursor.drop_append (n := 1) _ ['>'] tail rfl]
  unfold renderClosing
  simp only [Text.bytes_append, Nat.add_assoc]

end BoundView.Markup
