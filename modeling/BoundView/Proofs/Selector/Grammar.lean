import BoundView.Proofs.Selector.Meaning
import BoundView.Proofs.Text.Cut

/-!
# The grammar of selectors

A word of a selector is a **front**, with which its tag is said, and then parts: a marker and a name
each. `Spells` says so of a word and of what the word asks for, without a parser. A word that is not
spelled so is **refused** where its longest acceptable beginning stops: a marker there has no name
behind it, and any other character can begin nothing.

Both are stated for any notion of front. The parser cuts off every character that may stand in a tag
or is a star, so its fronts are runs of such characters (`IsRun`). A front proper is a tag name, one
star or nothing (`IsFront`); the two agree on a word whose run is a front.

Main statements: `Spells.parseWord_eq` and `parseWord_cases` for one word, `parse_reads` for all words
of a selector.
-/

namespace BoundView

/-- **A part of a word**: `#` or `.`, and a name. -/
structure WordPart where
  marker : Char
  name : List Char
  isMarker : marker = '#' ∨ marker = '.'
  name_ne_nil : name ≠ []
  isName : ∀ c ∈ name, Selector.isNameChar c = true

namespace WordPart

/-- The part as it stands in a word. -/
def text (p : WordPart) : List Char := p.marker :: p.name

/-- The names behind a marker, in order. -/
def namesOf (marker : Char) (parts : List WordPart) : List String :=
  (parts.filter (·.marker = marker)).map fun p => String.ofList p.name

end WordPart

namespace Compound

/-- **What a word asks for**: its front is the tag, unless it is a star or nothing, the last identifier
counts, and all classes do. -/
def ofParts (front : List Char) (parts : List WordPart) : Compound where
  tag := if front = [] ∨ front = ['*'] then none else some (String.ofList (Text.lower front))
  id := (WordPart.namesOf '#' parts).getLast?
  classes := WordPart.namesOf '.' parts

/-- Adds parts from the left. -/
def addParts (c : Compound) (parts : List WordPart) : Compound :=
  parts.foldl (fun c p => c.addPart p.marker (String.ofList p.name)) c

theorem addParts_eq_ofParts (front : List Char) (parts : List WordPart) :
    (⟨Selector.tagOf front, none, []⟩ : Compound).addParts parts = ofParts front parts := by
  induction parts using List.reverseRecOn with
  | nil => rfl
  | append_singleton parts p ih =>
    have hlast : ∀ c : Compound, c.addParts (parts ++ [p]) =
        (c.addParts parts).addPart p.marker (String.ofList p.name) := by
      intro c
      simp [addParts]
    rw [hlast, ih]
    rcases p.isMarker with hmarker | hmarker
    · simp [addPart, ofParts, WordPart.namesOf, hmarker, List.filter_append]
    · simp [addPart, ofParts, WordPart.namesOf, hmarker, List.filter_append]

end Compound

namespace Selector

/-- The words of a text: what stands between blanks, where that is anything. -/
def wordsOf (s : String) : List (List Char) := (s.toList.splitOnP Text.isBlank).filter (· ≠ [])

/-- A tag name, one star, or nothing. -/
def IsFront (cs : List Char) : Prop := cs = ['*'] ∨ ∀ c ∈ cs, isNameChar c = true

instance : DecidablePred IsFront := fun cs =>
  decidable_of_iff (cs = ['*'] ∨ cs.all isNameChar = true) (by rw [IsFront, List.all_eq_true])

/-- Characters of names and stars, in any order. -/
def IsRun (cs : List Char) : Prop := ∀ c ∈ cs, isTagChar c = true

/-- **Spelling**: a word is a front and parts, and asks for what they say. -/
def Spells (front : List Char → Prop) (word : List Char) (compound : Compound) : Prop :=
  ∃ tag parts, front tag ∧ word = tag ++ parts.flatMap WordPart.text ∧ compound = .ofParts tag parts

def Accepted (front : List Char → Prop) (word : List Char) : Prop :=
  ∃ compound, Spells front word compound

/-- Why nothing can go on with this character. -/
def refusal (selector : String) (c : Char) : Error :=
  if c = '#' ∨ c = '.' then .missingName selector c else .unsupported selector c

/-- **Refusal**: the longest acceptable beginning of a word stops before its end, and the character
there is the offending one. -/
def Refused (front : List Char → Prop) (selector : String) (word : List Char) (e : Error) : Prop :=
  ∃ before c after, word = before ++ c :: after ∧ Accepted front before ∧
    (∀ longer, longer <+: word → Accepted front longer → longer.length ≤ before.length) ∧
    e = refusal selector c

/-- **What reading a selector gives**, for a notion of front: the compounds that its words spell, or
else the error of the first word that is refused, or that there is no word. -/
structure Reads (front : List Char → Prop) (s : String) : Prop where
  accepts (selector : Selector) : parse s = .ok selector ↔
    wordsOf s ≠ [] ∧ List.Forall₂ (Spells front) (wordsOf s) selector.compounds
  refuses (e : Error) : parse s = .error e ↔
    (wordsOf s = [] ∧ e = .empty) ∨
      ∃ before word after, wordsOf s = before ++ word :: after ∧
        (∀ earlier ∈ before, Accepted front earlier) ∧ Refused front s word e

/-! ## One word -/

variable {front : List Char → Prop} {selector : String} {word cs : List Char} {compound : Compound}
  {e : Error}

theorem isNameChar_markers : isNameChar '#' = false ∧ isNameChar '.' = false := by decide +kernel

theorem isTagChar_markers : isTagChar '#' = false ∧ isTagChar '.' = false := by decide +kernel

/-- Where parts begin or end, no run goes on whose characters are no markers. -/
theorem head?_parts {p : Char → Bool} (hp : p '#' = false ∧ p '.' = false) (parts : List WordPart)
    {rest : List Char} (hrest : ∀ c ∈ rest.head?, p c = false) :
    ∀ c ∈ (parts.flatMap WordPart.text ++ rest).head?, p c = false := by
  cases parts with
  | nil => simpa using hrest
  | cons part parts =>
    intro c hc
    obtain rfl : part.marker = c := by simpa [WordPart.text] using hc
    rcases part.isMarker with hmarker | hmarker
    · rw [hmarker, hp.1]
    · rw [hmarker, hp.2]

/-- **Parts are read** one by one, and reading goes on behind them. -/
theorem parseParts_parts (parts : List WordPart) {rest : List Char}
    (hrest : ∀ c ∈ rest.head?, isNameChar c = false) :
    parseParts selector compound (parts.flatMap WordPart.text ++ rest) =
      parseParts selector (compound.addParts parts) rest := by
  induction parts generalizing compound with
  | nil => rfl
  | cons p parts ih =>
    obtain ⟨htake, hdrop⟩ := Text.span_run p.isName (head?_parts isNameChar_markers parts hrest)
    have hmarker : ¬ (p.marker ≠ '#' ∧ p.marker ≠ '.') := by
      have := p.isMarker
      tauto
    rw [List.flatMap_cons, List.append_assoc, WordPart.text, List.cons_append, parseParts, if_neg hmarker]
    simp only [htake, hdrop, if_neg p.name_ne_nil]
    exact ih

/-- Where no part can begin, reading fails. -/
theorem parseParts_refusal {c : Char} {after : List Char}
    (hafter : c = '#' ∨ c = '.' → ∀ d ∈ after.head?, isNameChar d = false) :
    parseParts selector compound (c :: after) = .error (refusal selector c) := by
  rw [parseParts, refusal]
  by_cases hmarker : c = '#' ∨ c = '.'
  · have hempty : after.takeWhile isNameChar = [] := by
      exact (Text.span_run (List.forall_mem_nil fun d => isNameChar d = true) (hafter hmarker)).1
    have hnot : ¬ (c ≠ '#' ∧ c ≠ '.') := by tauto
    rw [if_neg hnot, if_pos hmarker]
    simp only [hempty, if_true]
  · have hnot : c ≠ '#' ∧ c ≠ '.' := by tauto
    rw [if_pos hnot, if_neg hmarker]

/-- **What is left of a word** when as many parts as can be are taken off it: it begins with no
character of a name, and if with a marker, then with no name behind it. -/
def IsStuck (rest : List Char) : Prop :=
  (∀ c ∈ rest.head?, isNameChar c = false) ∧
    ∀ c after, rest = c :: after → c = '#' ∨ c = '.' → ∀ d ∈ after.head?, isNameChar d = false

theorem head?_dropWhile_eq_false (p : Char → Bool) (cs : List Char) :
    ∀ c ∈ (cs.dropWhile p).head?, p c = false := by
  intro c hc
  have hnot := List.head?_dropWhile_not p cs
  rw [Option.mem_def.mp hc] at hnot
  exact hnot

/-- The reader takes off as many parts as can be. -/
theorem exists_parts (selector : String) (compound : Compound) (cs : List Char)
    (hcs : ∀ c ∈ cs.head?, isNameChar c = false) :
    ∃ (parts : List WordPart) (rest : List Char), cs = parts.flatMap WordPart.text ++ rest ∧ IsStuck rest := by
  fun_induction parseParts selector compound cs with
  | case1 => exact ⟨[], [], rfl, hcs, fun _ _ h => nomatch h⟩
  | case2 compound marker body hmarker =>
    use [], marker :: body, rfl, hcs
    rintro c after ⟨⟩ hc
    tauto
  | case3 compound marker body _ name hname =>
    use [], marker :: body, rfl, hcs
    rintro c after ⟨⟩ - d hd
    have hall := head?_dropWhile_eq_false isNameChar body d
    rw [← List.takeWhile_append_dropWhile (p := isNameChar) (l := body)] at hd
    rw [show body.takeWhile isNameChar = [] from hname] at hd
    exact hall hd
  | case4 compound marker body hmarker name hname _ ih =>
    obtain ⟨parts, rest, hparts, hrest⟩ := ih (head?_dropWhile_eq_false isNameChar body)
    have hmark : marker = '#' ∨ marker = '.' := by tauto
    use ⟨marker, name, hmark, hname, fun c => List.mem_takeWhile_imp⟩ :: parts, rest
    refine ⟨?_, hrest⟩
    rw [List.flatMap_cons, List.append_assoc, ← hparts]
    simp [WordPart.text, name]

/-- A word is read front first, then its parts, up to where it is stuck. -/
theorem parseWord_parts (selector : String) {tag : List Char} (htag : IsRun tag) (parts : List WordPart)
    (rest : List Char)
    (hend : ∀ c ∈ (parts.flatMap WordPart.text ++ rest).head?, isTagChar c = false)
    (hrest : ∀ c ∈ rest.head?, isNameChar c = false) :
    parseWord selector (tag ++ (parts.flatMap WordPart.text ++ rest)) =
      parseParts selector (.ofParts tag parts) rest := by
  obtain ⟨htake, hdrop⟩ := Text.span_run htag hend
  rw [parseWord, htake, hdrop, parseParts_parts parts hrest, Compound.addParts_eq_ofParts]

/-- **What is spelled is read**, and gives the compound that it spells. -/
theorem Spells.parseWord_eq (h : Spells IsRun word compound) : parseWord selector word = .ok compound := by
  obtain ⟨tag, parts, htag, rfl, rfl⟩ := h
  have hread := parseWord_parts selector htag parts [] (head?_parts isTagChar_markers parts (by simp))
    (by simp)
  rw [List.append_nil] at hread
  rw [hread, parseParts]

/-- A longer beginning goes on with what comes next. -/
theorem exists_of_longer {before after longer : List Char} {c : Char}
    (h : longer <+: before ++ c :: after) (hlt : before.length < longer.length) :
    ∃ more, longer = before ++ c :: more ∧ more <+: after := by
  obtain ⟨more, rfl⟩ : before <+: longer :=
    List.prefix_of_prefix_length_le (List.prefix_append before _) h (by omega)
  have hmore := (List.prefix_append_right_inj before).mp h
  cases more with
  | nil => simp at hlt
  | cons d more =>
    obtain ⟨rfl, hrest⟩ := List.cons_prefix_cons.mp hmore
    exact ⟨more, rfl, hrest⟩

/-- **What cannot be read is refused**, with the error of the reader. -/
theorem parseWord_cases (selector : String) (word : List Char) :
    (∃ compound, parseWord selector word = .ok compound ∧ Spells IsRun word compound) ∨
      ∃ e, parseWord selector word = .error e ∧ Refused IsRun selector word e := by
  have hword := List.takeWhile_append_dropWhile (p := isTagChar) (l := word)
  have htag : IsRun (word.takeWhile isTagChar) := fun c => List.mem_takeWhile_imp
  have hend := head?_dropWhile_eq_false isTagChar word
  have hname : ∀ c ∈ (word.dropWhile isTagChar).head?, isNameChar c = false := by
    intro c hc
    have hc := hend c hc
    simp only [isTagChar, Bool.or_eq_false_iff] at hc
    exact hc.1
  generalize word.takeWhile isTagChar = tag at hword htag
  generalize word.dropWhile isTagChar = tail at hword hend hname
  obtain ⟨parts, rest, rfl, hrest, hstuck⟩ := exists_parts selector ⟨none, none, []⟩ tail hname
  have hread := parseWord_parts selector htag parts rest hend hrest
  rw [hword] at hread
  cases rest with
  | nil =>
    left
    rw [parseParts] at hread
    exact ⟨_, hread, tag, parts, htag, by simpa using hword.symm, rfl⟩
  | cons c after =>
    right
    use refusal selector c
    constructor
    · rw [hread, parseParts_refusal (hstuck c after rfl)]
    · use tag ++ parts.flatMap WordPart.text, c, after
      refine ⟨by simpa using hword.symm, ⟨_, tag, parts, htag, rfl, rfl⟩, ?_, rfl⟩
      -- Reading fails in the same way on any beginning that goes on with this character.
      rintro longer hlonger ⟨compound, hspells⟩
      by_contra hlength
      rw [← hword, ← List.append_assoc] at hlonger
      obtain ⟨more, rfl, hmore⟩ := exists_of_longer hlonger (by omega)
      rw [List.append_assoc] at hspells
      have hagain := parseWord_parts selector htag parts (c :: more)
        (by simpa [List.head?_append] using hend) (by simpa using hrest)
      have hfails : parseParts selector (.ofParts tag parts) (c :: more) = .error (refusal selector c) := by
        apply parseParts_refusal
        intro hmarker d hd
        apply hstuck c after rfl hmarker d
        obtain ⟨_, rfl⟩ := hmore
        simpa [List.head?_append] using .inl hd
      rw [hspells.parseWord_eq, hfails] at hagain
      contradiction

/-- What is refused is not accepted. -/
theorem Refused.not_accepted (h : Refused front selector word e) : ¬ Accepted front word := by
  intro haccepted
  obtain ⟨before, c, after, rfl, -, hlongest, -⟩ := h
  have hlength := hlongest _ List.prefix_rfl haccepted
  simp only [List.length_append, List.length_cons] at hlength
  omega

/-- A word is refused for one reason. -/
theorem Refused.unique {e' : Error} (h : Refused front selector word e)
    (h' : Refused front selector word e') : e = e' := by
  obtain ⟨before, c, after, rfl, hbefore, hlongest, rfl⟩ := h
  obtain ⟨before', c', after', hword, hbefore', hlongest', rfl⟩ := h'
  have hle := hlongest before' ⟨_, hword.symm⟩ hbefore'
  have hle' := hlongest' before (List.prefix_append _ _) hbefore
  obtain ⟨rfl, hrest⟩ := List.append_inj hword (by omega)
  cases hrest
  rfl

/-- Refusal depends only on which beginnings of the word are accepted. -/
theorem Refused.congr {front' : List Char → Prop} (h : Refused front selector word e)
    (haccepted : ∀ part, part <+: word → (Accepted front part ↔ Accepted front' part)) :
    Refused front' selector word e := by
  obtain ⟨before, c, after, hword, hbefore, hlongest, he⟩ := h
  use before, c, after, hword
  constructor
  · exact (haccepted before ⟨_, hword.symm⟩).mp hbefore
  · constructor
    · intro longer hlonger hlong
      exact hlongest longer hlonger ((haccepted longer hlonger).mpr hlong)
    · exact he

theorem parseWord_eq_ok_iff (selector : String) :
    parseWord selector word = .ok compound ↔ Spells IsRun word compound := by
  constructor
  · intro h
    rcases parseWord_cases selector word with ⟨_, hread, hspells⟩ | ⟨_, hread, -⟩
    · rw [hread] at h
      cases h
      exact hspells
    · rw [hread] at h
      cases h
  · exact Spells.parseWord_eq

theorem parseWord_eq_error_iff : parseWord selector word = .error e ↔ Refused IsRun selector word e := by
  rcases parseWord_cases selector word with ⟨compound, hread, hspells⟩ | ⟨e', hread, hrefused⟩
  · rw [hread]
    constructor
    · intro h
      cases h
    · intro h
      exact absurd ⟨compound, hspells⟩ h.not_accepted
  · rw [hread]
    constructor
    · rintro ⟨⟩
      exact hrefused
    · intro h
      rw [hrefused.unique h]

/-! ## All words -/

theorem parseWords_cons (selector : String) (word : List Char) (words : List (List Char)) :
    parseWords selector (word :: words) =
      (parseWord selector word).bind fun compound => (parseWords selector words).map (compound :: ·) := by
  rw [parseWords]
  cases parseWord selector word with
  | error e => rfl
  | ok compound => rfl

theorem parseWords_eq_ok_iff (selector : String) {words : List (List Char)} {compounds : List Compound} :
    parseWords selector words = .ok compounds ↔ List.Forall₂ (Spells IsRun) words compounds := by
  induction words generalizing compounds with
  | nil => simp [parseWords, eq_comm]
  | cons word words ih =>
    rw [parseWords_cons, List.forall₂_cons_left_iff]
    simp only [← ih, ← parseWord_eq_ok_iff selector]
    cases parseWord selector word with
    | error e => simp [Except.bind]
    | ok compound =>
      cases parseWords selector words with
      | error e => simp [Except.bind, Except.map]
      | ok others => simp [Except.bind, Except.map, eq_comm]

theorem parseWords_eq_error_iff {words : List (List Char)} :
    parseWords selector words = .error e ↔ ∃ before word after, words = before ++ word :: after ∧
        (∀ earlier ∈ before, Accepted IsRun earlier) ∧ Refused IsRun selector word e := by
  induction words with
  | nil => simp [parseWords]
  | cons word words ih =>
    rw [parseWords_cons]
    constructor
    · intro h
      cases hread : parseWord selector word with
      | error e' =>
        rw [hread] at h
        cases h
        exact ⟨[], word, words, rfl, by simp, parseWord_eq_error_iff.mp hread⟩
      | ok compound =>
        have hothers : parseWords selector words = .error e := by
          cases hothers : parseWords selector words <;> simp_all [Except.bind, Except.map]
        obtain ⟨before, refused, after, rfl, hbefore, hrefused⟩ := ih.mp hothers
        have haccepted : Accepted IsRun word := ⟨compound, (parseWord_eq_ok_iff selector).mp hread⟩
        exact ⟨word :: before, refused, after, rfl, List.forall_mem_cons.mpr ⟨haccepted, hbefore⟩,
          hrefused⟩
    · rintro ⟨before, refused, after, hwords, hbefore, hrefused⟩
      cases before with
      | nil =>
        cases hwords
        rw [parseWord_eq_error_iff.mpr hrefused]
        rfl
      | cons first before =>
        cases hwords
        obtain ⟨⟨compound, hspells⟩, hlater⟩ := List.forall_mem_cons.mp hbefore
        rw [hspells.parseWord_eq, ih.mpr ⟨before, refused, after, rfl, hlater, hrefused⟩]
        rfl

/-- The words of a text are what stands between its blanks. -/
theorem words_eq_wordsOf (s : String) : Text.words s.toList = wordsOf s := by
  have hfrom : ∀ cs, ∃ later, cs.splitOnP Text.isBlank = (Text.wordsFrom cs).1 :: later ∧
      later.filter (· ≠ []) = (Text.wordsFrom cs).2 := by
    intro cs
    induction cs with
    | nil => exact ⟨[], List.splitOnP_nil, rfl⟩
    | cons c cs ih =>
      obtain ⟨later, hsplit, hlater⟩ := ih
      rw [List.splitOnP_cons_eq_if_modifyHead, hsplit, Text.wordsFrom]
      split
      · use (Text.wordsFrom cs).1 :: later, rfl
        cases hword : (Text.wordsFrom cs).1 <;> simp_all
      · exact ⟨later, rfl, hlater⟩
  obtain ⟨later, hsplit, hlater⟩ := hfrom s.toList
  rw [wordsOf, hsplit, Text.words]
  cases hword : (Text.wordsFrom s.toList).1 <;> simp_all

theorem parse_eq (s : String) :
    parse s = if wordsOf s = [] then .error .empty else (parseWords s (wordsOf s)).map Selector.mk := by
  rw [parse, words_eq_wordsOf]
  cases wordsOf s with
  | nil => rfl
  | cons word words =>
    rw [parseWords_cons, if_neg (List.cons_ne_nil word words)]
    cases parseWord s word with
    | error e => rfl
    | ok compound =>
      cases parseWords s words with
      | error e => rfl
      | ok compounds => rfl

/-- **What reading gives**, for the fronts of the reader. -/
theorem reads_isRun (s : String) : Reads IsRun s where
  accepts result := by
    rw [parse_eq, ← parseWords_eq_ok_iff s]
    by_cases hwords : wordsOf s = []
    · simp [hwords]
    · rw [if_neg hwords]
      cases parseWords s (wordsOf s) with
      | error e => simp [Except.map]
      | ok compounds =>
        cases result
        simp [Except.map, hwords]
  refuses e := by
    rw [parse_eq, ← parseWords_eq_error_iff]
    by_cases hwords : wordsOf s = []
    · simp [hwords, parseWords, eq_comm]
    · rw [if_neg hwords]
      cases parseWords s (wordsOf s) with
      | error e => simp [Except.map, hwords]
      | ok compounds => simp [Except.map, hwords]

/-! ## Fronts proper -/

/-- What begins a word, up to its first part, is a tag name, one star or nothing. -/
def Tidy (word : List Char) : Prop := IsFront (word.takeWhile isTagChar)

instance : DecidablePred Tidy := fun word => inferInstanceAs (Decidable (IsFront (word.takeWhile isTagChar)))

theorem IsFront.of_begins {ds : List Char} (h : IsFront ds) (hbegins : cs <+: ds) : IsFront cs := by
  rcases h with rfl | hall
  · cases cs with
    | nil => exact .inr (by simp)
    | cons c cs =>
      obtain ⟨rfl, hnil⟩ := List.cons_prefix_cons.mp hbegins
      exact .inl (by rw [List.prefix_nil.mp hnil])
  · exact .inr fun c hc => hall c (hbegins.mem hc)

theorem IsFront.isRun (h : IsFront cs) : IsRun cs := by
  intro c hc
  rcases h with rfl | hall
  · obtain rfl := List.mem_singleton.mp hc
    simp [isTagChar]
  · simp [isTagChar, hall c hc]

/-- On beginnings of a tidy word, runs and fronts come to the same. -/
theorem Tidy.spells_iff (h : Tidy word) {part : List Char} (hpart : part <+: word) :
    Spells IsRun part compound ↔ Spells IsFront part compound := by
  constructor
  · rintro ⟨tag, parts, htag, rfl, rfl⟩
    obtain ⟨rest, rfl⟩ := hpart
    have hbegins : tag <+: (tag ++ parts.flatMap WordPart.text ++ rest).takeWhile isTagChar := by
      rw [List.append_assoc, List.takeWhile_append_of_pos htag]
      exact List.prefix_append _ _
    exact ⟨tag, parts, h.of_begins hbegins, rfl, rfl⟩
  · rintro ⟨tag, parts, htag, rfl, rfl⟩
    exact ⟨tag, parts, htag.isRun, rfl, rfl⟩

theorem forall₂_spells {front' : List Char → Prop} {words : List (List Char)} {compounds : List Compound}
    (h : ∀ word ∈ words, ∀ compound, Spells front word compound → Spells front' word compound)
    (hspells : List.Forall₂ (Spells front) words compounds) :
    List.Forall₂ (Spells front') words compounds :=
  ((List.forall₂_and_left _ _).mpr ⟨h, hspells⟩).imp fun _ _ h => h.1 _ h.2

/-- The first refused word is the same for notions of front that accept the same beginnings. -/
theorem exists_refused_congr {front' : List Char → Prop} {words : List (List Char)}
    (haccepted : ∀ word ∈ words, ∀ part, part <+: word → (Accepted front part ↔ Accepted front' part))
    (h : ∃ before word after, words = before ++ word :: after ∧
      (∀ earlier ∈ before, Accepted front earlier) ∧ Refused front selector word e) :
    ∃ before word after, words = before ++ word :: after ∧
      (∀ earlier ∈ before, Accepted front' earlier) ∧ Refused front' selector word e := by
  obtain ⟨before, word, after, rfl, hbefore, hrefused⟩ := h
  use before, word, after, rfl
  constructor
  · intro earlier hearlier
    exact (haccepted earlier (by simp [hearlier]) earlier List.prefix_rfl).mp (hbefore earlier hearlier)
  · exact hrefused.congr (haccepted word (by simp))

/-- Two notions of front that spell the beginnings of all words alike give the same reading. -/
theorem Reads.congr {front' : List Char → Prop} {s : String} (h : Reads front s)
    (hspells : ∀ word ∈ wordsOf s, ∀ part, part <+: word →
      ∀ compound, Spells front part compound ↔ Spells front' part compound) : Reads front' s := by
  have hwhole : ∀ word ∈ wordsOf s, ∀ compound,
      Spells front word compound ↔ Spells front' word compound :=
    fun word hword => hspells word hword word List.prefix_rfl
  have haccepted : ∀ word ∈ wordsOf s, ∀ part, part <+: word →
      (Accepted front part ↔ Accepted front' part) :=
    fun word hword part hpart => exists_congr (hspells word hword part hpart)
  constructor
  · intro result
    rw [h.accepts]
    apply and_congr_right
    intro _
    constructor
    · exact forall₂_spells fun word hword compound => (hwhole word hword compound).mp
    · exact forall₂_spells fun word hword compound => (hwhole word hword compound).mpr
  · intro e
    rw [h.refuses]
    apply or_congr_right
    constructor
    · exact exists_refused_congr haccepted
    · exact exists_refused_congr fun word hword part hpart => (haccepted word hword part hpart).symm

/-- **The grammar of selectors.** Reading gives what the grammar says with the reader's fronts. Where
nothing but a tag name or one star begins a word, up to its first part, that is what the grammar says
with fronts proper. -/
theorem parse_reads (s : String) :
    Reads IsRun s ∧ ((∀ word ∈ wordsOf s, Tidy word) → Reads IsFront s) := by
  constructor
  · exact reads_isRun s
  · intro htidy
    apply (reads_isRun s).congr
    intro word hword part hpart compound
    exact (htidy word hword).spells_iff hpart

/-- Two words, each of which is a tag or a star and parts. -/
theorem parse_reads_sample : (∀ word ∈ wordsOf "MAIN.b#a#c *", Tidy word) ∧
    List.Forall₂ (Spells IsFront) (wordsOf "MAIN.b#a#c *")
      [⟨some "main", some "c", ["b"]⟩, ⟨none, none, []⟩] := by
  have htidy : ∀ word ∈ wordsOf "MAIN.b#a#c *", Tidy word := by decide +kernel
  have hparse : parse "MAIN.b#a#c *" = .ok ⟨[⟨some "main", some "c", ["b"]⟩, ⟨none, none, []⟩]⟩ := by
    decide +kernel
  exact ⟨htidy, (((parse_reads "MAIN.b#a#c *").2 htidy).accepts _ |>.mp hparse).2⟩

/-- By the grammar, a star stands nowhere but at the beginning of a word. -/
theorem Accepted.star_not_mem (h : Accepted IsFront word) : '*' ∉ word.tail := by
  have hstar : isNameChar '*' = false := by decide +kernel
  obtain ⟨_, tag, parts, htag, rfl, -⟩ := h
  have hparts : '*' ∉ parts.flatMap WordPart.text := by
    intro hmem
    obtain ⟨p, -, hp⟩ := List.mem_flatMap.mp hmem
    rcases List.mem_cons.mp hp with hmarker | hname
    · have := p.isMarker
      simp [← hmarker] at this
    · simp [p.isName '*' hname] at hstar
  intro hmem
  rcases htag with rfl | hall
  · exact hparts hmem
  · rcases List.mem_append.mp (List.mem_of_mem_tail hmem) with htag | hpart
    · simp [hall '*' htag] at hstar
    · exact hparts hpart

/-- A star between letters is taken for a letter: `a*b` is read as a tag, though it is neither a tag
name nor a star, and is refused at its star by the grammar. -/
theorem star_in_tag :
    parse "a*b" = .ok ⟨[⟨some "a*b", none, []⟩]⟩ ∧ wordsOf "a*b" = [['a', '*', 'b']] ∧
      ¬ Accepted IsFront ['a', '*', 'b'] ∧
      Refused IsFront "a*b" ['a', '*', 'b'] (.unsupported "a*b" '*') := by
  have hparse : parse "a*b" = .ok ⟨[⟨some "a*b", none, []⟩]⟩ := by decide +kernel
  have hwords : wordsOf "a*b" = [['a', '*', 'b']] := by decide +kernel
  have hrefused : Refused IsFront "a*b" ['a', '*', 'b'] (.unsupported "a*b" '*') := by
    use ['a'], '*', ['b'], rfl
    constructor
    · exact ⟨_, ['a'], [], by decide +kernel, rfl, rfl⟩
    · constructor
      · intro longer hlonger haccepted
        by_contra hlength
        obtain ⟨more, rfl, -⟩ : ∃ more, longer = ['a'] ++ '*' :: more ∧ more <+: ['b'] :=
          exists_of_longer hlonger (Nat.lt_of_not_le hlength)
        exact haccepted.star_not_mem (by simp)
      · decide +kernel
  exact ⟨hparse, hwords, hrefused.not_accepted, hrefused⟩

end Selector

end BoundView
