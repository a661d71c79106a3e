import BoundView.Markup.Entity

/-!
# Escaped text reads back

Escaping writes six characters as references and leaves the others. Decoding goes from the left and
needs nothing behind a reference, so an escaped text reads back in front of any tail. An escaped text
holds no `<` and no quote: no tag begins inside it, and no quoted value ends inside it.

What escaping makes of a text is also said without a function, in `Escapes`: a table of six characters
with their references, and every other character as it is. Only one function does that (`escapes_iff`),
so a law of it is a law of whatever escapes by the table.

Main statements: `decode_escape_append`, `ne_of_mem_escape`, and `decoding_undoes`, the first of them for
any function that escapes by the table.
-/

namespace BoundView.Markup

theorem escape_cons (c : Char) (cs : List Char) : escape (c :: cs) = escapeChar c ++ escape cs := by
  unfold escape
  rw [List.flatMap_cons]

/-- **One escaped character reads back** in front of any tail. -/
theorem decode_escapeChar_append (c : Char) (tail : List Char) :
    decode (escapeChar c ++ tail) = c :: decode tail := by
  unfold escapeChar
  split
  · exact decode_reference rfl
  · exact decode_reference rfl
  · exact decode_reference rfl
  · exact decode_reference rfl
  · exact decode_reference rfl
  · exact decode_reference rfl
  · rename_i hamp _ _ _ _
    exact decode_cons_of_ne hamp tail

/-- **Escaped text reads back** in front of any tail. -/
theorem decode_escape_append (cs tail : List Char) :
    decode (escape cs ++ tail) = cs ++ decode tail := by
  induction cs with
  | nil => rfl
  | cons c cs ih => rw [escape_cons, List.append_assoc, decode_escapeChar_append, ih, List.cons_append]

theorem decode_nil : decode [] = [] := by
  rw [decode]

/-- What holds no ampersand stays as it is. -/
theorem decode_append_of_not_mem {front : List Char} (h : '&' ∉ front) (rest : List Char) :
    decode (front ++ rest) = front ++ decode rest := by
  induction front with
  | nil => rfl
  | cons c cs ih =>
    have hc : c ≠ '&' := fun he => h (he ▸ List.mem_cons_self)
    rw [List.cons_append, decode_cons_of_ne hc, ih fun hm => h (List.mem_cons_of_mem c hm)]
    rfl

theorem decode_of_not_mem {cs : List Char} (h : '&' ∉ cs) : decode cs = cs := by
  have hdecode := decode_append_of_not_mem h []
  rwa [decode_nil, List.append_nil] at hdecode

theorem decode_escape (cs : List Char) : decode (escape cs) = cs := by
  have h := decode_escape_append cs []
  rwa [decode_nil, List.append_nil, List.append_nil] at h

theorem all_escapeChar (d : Char) : (escapeChar d).all (fun c => c != '<' && c != '"') = true := by
  unfold escapeChar
  split
  · decide
  · decide
  · decide
  · decide
  · decide
  · decide
  · rename_i hquote _ _ _ hlt _
    rw [List.all_cons, List.all_nil, Bool.and_true, Bool.and_eq_true, bne_iff_ne, bne_iff_ne]
    exact ⟨hlt, hquote⟩

/-- **No tag begins and no quoted value ends** in escaped text. -/
theorem ne_of_mem_escape {c : Char} {cs : List Char} (h : c ∈ escape cs) : c ≠ '<' ∧ c ≠ '"' := by
  obtain ⟨d, _, hc⟩ := List.mem_flatMap.mp h
  have hne := List.all_eq_true.mp (all_escapeChar d) c hc
  rwa [Bool.and_eq_true, bne_iff_ne, bne_iff_ne] at hne

/-- Escaping leaves nothing out. -/
theorem escape_ne_nil {cs : List Char} (h : cs ≠ []) : escape cs ≠ [] := by
  intro hnil
  have hdecode := decode_escape cs
  rw [hnil, decode_nil] at hdecode
  exact h hdecode.symm

/-! ## Escaping by the table -/

/-- The characters that are replaced, each with its reference. -/
def replacements : List (Char × String) :=
  [('"', "&quot;"), ('&', "&amp;"), ('\'', "&#x27;"), ('/', "&#x2f;"), ('<', "&lt;"), ('>', "&gt;")]

/-- **What escaping makes of a text**: the characters of the table are replaced by their references, and
all others are kept. -/
inductive Escapes : List Char → List Char → Prop
  | done : Escapes [] []
  | replaced {c : Char} {reference : String} {cs ds : List Char} :
      (c, reference) ∈ replacements → Escapes cs ds → Escapes (c :: cs) (reference.toList ++ ds)
  | kept {c : Char} {cs ds : List Char} :
      c ∉ replacements.map Prod.fst → Escapes cs ds → Escapes (c :: cs) (c :: ds)

theorem escapeChar_of_mem {c : Char} {reference : String} (h : (c, reference) ∈ replacements) :
    escapeChar c = reference.toList := by
  simp only [replacements, List.mem_cons, Prod.mk.injEq, List.not_mem_nil, or_false] at h
  rcases h with ⟨rfl, rfl⟩ | ⟨rfl, rfl⟩ | ⟨rfl, rfl⟩ | ⟨rfl, rfl⟩ | ⟨rfl, rfl⟩ | ⟨rfl, rfl⟩
  all_goals rfl

theorem escapeChar_of_not_mem {c : Char} (h : c ∉ replacements.map Prod.fst) : escapeChar c = [c] := by
  unfold escapeChar
  split
  case h_7 => rfl
  -- The other branches are the characters of the table.
  all_goals exact absurd (by decide) h

/-- **Escaping by the table has one outcome**, that of `escape`. -/
theorem escapes_iff {cs ds : List Char} : Escapes cs ds ↔ ds = escape cs := by
  constructor
  · intro h
    induction h with
    | done => rfl
    | replaced hmem _ ih => rw [escape_cons, escapeChar_of_mem hmem, ih]
    | kept hmem _ ih => rw [escape_cons, escapeChar_of_not_mem hmem, ih, List.singleton_append]
  · rintro rfl
    induction cs with
    | nil => exact .done
    | cons c cs ih =>
      rw [escape_cons]
      by_cases hmem : c ∈ replacements.map Prod.fst
      · obtain ⟨⟨_, reference⟩, hentry, rfl⟩ := List.mem_map.mp hmem
        rw [escapeChar_of_mem hentry]
        exact .replaced hentry ih
      · rw [escapeChar_of_not_mem hmem]
        exact .kept hmem ih

/-- `String` form of `escape`. -/
def escaped (s : String) : String := String.ofList (escape s.toList)

theorem toList_escaped (s : String) : (escaped s).toList = escape s.toList := by
  rw [escaped, String.toList_ofList]

/-- The texts written for `s` by the table are `escaped s`. -/
theorem escapes_iff_eq_escaped {s written : String} :
    Escapes s.toList written.toList ↔ written = escaped s := by
  rw [escapes_iff, ← toList_escaped, String.toList_inj]

/-- **Decoding undoes escaping**, also in front of a text that is not escaped: each reference of the
escaped part ends in it, so none of them reaches for what follows. -/
theorem decoding_undoes (write : String → String)
    (hwrite : ∀ s, Escapes s.toList (write s).toList) (s t : String) :
    decoded (write s ++ t) = s ++ decoded t := by
  -- The table leaves no choice, so the induction of `decode_escape_append` on the text is enough.
  have hwritten : write s = escaped s := escapes_iff_eq_escaped.mp (hwrite s)
  calc decoded (write s ++ t)
    _ = String.ofList (decode (escape s.toList ++ t.toList)) := by
      rw [decoded, String.toList_append, hwritten, toList_escaped]
    _ = String.ofList (s.toList ++ decode t.toList) := by rw [decode_escape_append]
    _ = s ++ decoded t := by rw [String.ofList_append, String.ofList_toList, decoded]

/-- The text holds a reference and ends where one begins. Written as it is, it would be completed by what
follows, since `&#39;` stands for an apostrophe; escaped, it is not. -/
theorem decoding_undoes_unfinished :
    (∀ s, Escapes s.toList (escaped s).toList) ∧ escaped "&lt;&#" = "&amp;lt;&amp;#" ∧
      decoded ("&amp;lt;&amp;#" ++ "39;") = "&lt;&#39;" := by
  have hwrite : ∀ s, Escapes s.toList (escaped s).toList := fun s => escapes_iff_eq_escaped.mpr rfl
  have hescaped : escaped "&lt;&#" = "&amp;lt;&amp;#" := by decide
  have htail : decoded "39;" = "39;" := by
    rw [decoded, decode_of_not_mem (by decide), String.ofList_toList]
  have hundone := decoding_undoes escaped hwrite "&lt;&#" "39;"
  rw [hescaped, htail] at hundone
  exact ⟨hwrite, hescaped, hundone⟩

end BoundView.Markup
