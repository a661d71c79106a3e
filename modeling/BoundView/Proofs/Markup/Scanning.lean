import BoundView.Proofs.Markup.Reading
import BoundView.Proofs.Text.Slice
import Mathlib.Data.List.TakeWhile

/-!
# Scanning markup by byte offsets

The readers of markup work on the rest of a source. Here the same is done with nothing but a byte
offset into the source: every piece is a slice, and a slice that is out of bounds or inside a character
refuses the whole scan (`none`). A loop is refused when a round does not take it forward (`repeating`,
`forward?`).

Main statements: `At.scan_takeWhile`, `At.scan_textEnd`, `scan_decode`, `At.scan_value` and `At.scan_attribute`, no scan is
refused at a place of a source, and each finds what the reader finds there.
-/

namespace BoundView.Markup

open BoundView.Text

namespace Scan

universe u v

variable {σ : Type u} {α : Type v}

/-! ## Loops -/

/-- **A loop**: rounds of a step that either ends it or goes on. A round that leaves no less to do than
it found is refused, and with it the loop. -/
def repeating (left : σ → Nat) (step : σ → Option (σ ⊕ α)) (s : σ) : Option α :=
  match step s with
  | none => none
  | some (.inr a) => some a
  | some (.inl next) => if left next < left s then repeating left step next else none
termination_by left s

theorem repeating_last {left : σ → Nat} {step : σ → Option (σ ⊕ α)} {s : σ} {a : α}
    (h : step s = some (.inr a)) : repeating left step s = some a := by
  rw [repeating, h]

theorem repeating_next {left : σ → Nat} {step : σ → Option (σ ⊕ α)} {s next : σ}
    (h : step s = some (.inl next)) (hlt : left next < left s) :
    repeating left step s = repeating left step next := by
  rw [repeating, h]
  exact if_pos hlt

/-- **The place at which the next round of a loop begins**: farther on, in the source and between
two characters. -/
def forward? (source : List Char) (pos next : Nat) : Option Nat :=
  if pos < next ∧ (from? source next).isSome then some next else none

/-! ## Scans -/

/-- The run of characters that satisfy `keep`, and the place behind it. -/
def takeWhile (source : List Char) (keep : Char → Bool) (pos : Nat) : Option (List Char × Nat) := do
  let rest ← from? source pos
  let len := (find? (headIs fun c => !keep c) rest).getD (bytes source - pos)
  let taken ← slice? source pos (pos + len)
  return (taken, pos + len)

/-- The place behind the blanks that come next. -/
def skipBlank (source : List Char) (pos : Nat) : Option Nat :=
  (takeWhile source isBlank pos).map Prod.snd

/-- Whether markup begins here; only behind a `<` is there a character to look at. -/
def startsMarkup (cs : List Char) : Option Bool :=
  if startsWith ['<', '/'] cs || startsWith ['<', '!'] cs then some true
  else if startsWith ['<'] cs then (from? cs 1).map (headIs Char.isAlpha)
  else some false

/-- One round of the search for the end of a text. -/
def textRound (source : List Char) (pos : Nat) : Option (Nat ⊕ Nat) := do
  let rest ← from? source pos
  match find? (startsWith ['<']) rest with
  | none => return .inr (bytes source)
  | some len =>
    let here ← from? source (pos + len)
    let markup ← startsMarkup here
    return if markup then .inr (pos + len) else .inl (pos + len + 1)

/-- **The end of a text** from a place behind its first character on. -/
def textEnd (source : List Char) (pos : Nat) : Option Nat :=
  repeating (bytes source - ·) (textRound source) pos

/-- The reference that begins with the first character, and the offset of its semicolon. -/
def reference (cs : List Char) : Option (Option (Char × Nat)) :=
  match find? (startsWith [';']) cs with
  | none => some none
  | some semicolon =>
    if semicolon ≤ reach then
      (slice? cs 1 semicolon).map fun name => (named? name).map fun c => (c, semicolon)
    else some none

/-- One round of decoding: what is left to decode, and what has been decoded. -/
def decodeRound (s : List Char × List Char) : Option ((List Char × List Char) ⊕ List Char) :=
  match find? (startsWith ['&']) s.1 with
  | none => some (.inr (s.2 ++ s.1))
  | some ampersand => do
    let before ← upTo? s.1 ampersand
    let rest ← from? s.1 ampersand
    match ← reference rest with
    | some (c, semicolon) =>
      let after ← from? rest (semicolon + 1)
      return .inl (after, s.2 ++ before ++ [c])
    | none =>
      let after ← from? rest 1
      return .inl (after, s.2 ++ before ++ ['&'])

/-- **Decoding**, slice by slice. -/
def decode (cs : List Char) : Option (List Char) := repeating (·.1.length) decodeRound (cs, [])

/-- The value of an attribute, from behind its equals sign. -/
def valueAt (source : List Char) (name : String) (pos : Nat) :
    Option (Except Error (List Char × Nat)) := do
  let start ← skipBlank source pos
  let rest ← from? source start
  match rest.head? with
  | none => return .ok ([], start)
  | some quote =>
    if quote = '"' ∨ quote = '\'' then
      let body ← from? source (start + 1)
      match find? (startsWith [quote]) body with
      | none => return .error (.unterminatedAttribute name start)
      | some len =>
        let raw ← slice? source (start + 1) (start + 1 + len)
        let decoded ← decode raw
        return .ok (decoded, start + 1 + len + 1)
    else
      let (raw, next) ← takeWhile source isBareValueChar start
      let decoded ← decode raw
      return .ok (decoded, next)

/-- **One attribute**: its name, its value and the place behind it. -/
def attributeAt (source : List Char) (pos : Nat) :
    Option (Except Error (String × List Char × Nat)) := do
  let (name, next) ← takeWhile source isAttributeNameChar pos
  let name := String.ofList (lower name)
  let next ← skipBlank source next
  let rest ← from? source next
  if startsWith ['='] rest then
    let result ← valueAt source name (next + 1)
    return result.map fun (value, next) => (name, value, next)
  else return .ok (name, [], next)

end Scan

/-! ## Places in a source -/

namespace Cursor

/-- **A cursor stands in a source**: its rest is what the source has from its offset on. -/
def At (source : List Char) (c : Cursor) : Prop := from? source c.offset = some c.rest

namespace At

variable {source : List Char} {c c' : Cursor}

theorem start (source : List Char) : At source (Cursor.start source) := from?_zero source

/-- The place behind characters that are there. -/
theorem behind (h : At source c) {taken rest : List Char} (hrest : c.rest = taken ++ rest) :
    from? source (c.offset + bytes taken) = some rest := by
  obtain ⟨before, hbefore, hoffset⟩ := from?_eq_some_iff.mp h
  rw [hrest] at hbefore
  rw [from?_eq_some_iff]
  exact ⟨before ++ taken, by simp [hbefore], by simp [hoffset]⟩

/-- The slice between two places. -/
theorem slice (h : At source c) {front mid rest : List Char} (hrest : c.rest = front ++ (mid ++ rest)) :
    slice? source (c.offset + bytes front) (c.offset + bytes front + bytes mid) = some mid := by
  obtain ⟨before, hbefore, hoffset⟩ := from?_eq_some_iff.mp h
  have hslice := slice?_append (before ++ front) mid rest
  rw [List.append_assoc, ← hrest, hbefore, bytes_append, hoffset] at hslice
  exact hslice

theorem offset_le (h : At source c) : c.offset ≤ bytes source := by
  obtain ⟨before, hbefore, hoffset⟩ := from?_eq_some_iff.mp h
  have := congrArg bytes hbefore
  rw [bytes_append] at this
  omega

/-- The bytes before a place and those behind it are all there are. -/
theorem bytes_rest (h : At source c) : bytes source - c.offset = bytes c.rest := by
  obtain ⟨before, hbefore, hoffset⟩ := from?_eq_some_iff.mp h
  have := congrArg bytes hbefore
  rw [bytes_append] at this
  omega

theorem drop (h : At source c) (n : Nat) : At source (c.drop n) :=
  h.behind (List.take_append_drop n c.rest).symm

theorem takeWhile (h : At source c) (keep : Char → Bool) : At source (c.takeWhile keep).2 :=
  h.behind List.takeWhile_append_dropWhile.symm

theorem skipBlank (h : At source c) : At source c.skipBlank := h.takeWhile isBlank

theorem cutAt (h : At source c) (stop : List Char → Bool) : At source (c.cutAt stop).2 :=
  h.behind (cutAt_append stop c.rest).symm

/-- **A loop that has read something goes forward.** -/
theorem forward (h : At source c) (h' : At source c') (hlt : c'.rest.length < c.rest.length) :
    Scan.forward? source c.offset c'.offset = some c'.offset := by
  have hforward := lt_of_length_lt h h' hlt
  rw [Scan.forward?, if_pos ⟨hforward, by rw [h']; rfl⟩]

/-! ## Runs of characters -/

/-- The characters before the first one of another kind, as slices find them. -/
theorem scan_takeWhile (h : At source c) (keep : Char → Bool) :
    Scan.takeWhile source keep c.offset =
      some ((c.takeWhile keep).1, (c.takeWhile keep).2.offset) := by
  have hlen : (find? (headIs fun d => !keep d) c.rest).getD (bytes source - c.offset) =
      bytes (c.rest.takeWhile keep) := by
    rw [h.bytes_rest, find?, cutAt?_headIs]
    split
    · simp
    · rename_i hall
      have hkeep : ∀ d ∈ c.rest, keep d = true := by simpa using hall
      rw [List.takeWhile_eq_self_iff.mpr hkeep]
      rfl
  have hrest : c.rest = [] ++ (c.rest.takeWhile keep ++ c.rest.dropWhile keep) :=
    List.takeWhile_append_dropWhile.symm
  have hslice := h.slice hrest
  rw [bytes_nil, Nat.add_zero] at hslice
  rw [Scan.takeWhile, h]
  simp only [Option.bind_eq_bind, Option.bind_some, hlen]
  rw [hslice]
  rfl

theorem scan_skipBlank (h : At source c) :
    Scan.skipBlank source c.offset = some c.skipBlank.offset := by
  rw [Scan.skipBlank, h.scan_takeWhile]
  rfl

end At

end Cursor

/-! ## Where markup begins -/

/-- A cut that is not before the first character. -/
theorem cutAt_cons_of_not {stop : List Char → Bool} {c : Char} {cs : List Char}
    (h : stop (c :: cs) = false) :
    Text.cutAt stop (c :: cs) = (c :: (Text.cutAt stop cs).1, (Text.cutAt stop cs).2) := by
  unfold Text.cutAt
  rw [Text.cutAt?, h]
  cases Text.cutAt? stop cs <;> rfl

/-- A cut is not before characters at which the condition never holds. -/
theorem cutAt_skip {stop : List Char → Bool} {front rest : List Char}
    (hfront : ∀ v, v <:+ front → v ≠ [] → stop (v ++ rest) = false) :
    Text.cutAt stop (front ++ rest) =
      (front ++ (Text.cutAt stop rest).1, (Text.cutAt stop rest).2) := by
  induction front with
  | nil => rfl
  | cons c cs ih =>
    have hc := hfront (c :: cs) (List.suffix_refl _) (List.cons_ne_nil c cs)
    rw [List.cons_append] at hc ⊢
    rw [cutAt_cons_of_not hc, ih fun v hv => hfront v (hv.trans (List.suffix_cons c cs))]
    rfl

/-- The characters behind a first one of one byte. -/
theorem from?_cons_one {c : Char} (hc : c.utf8Size = 1) (cs : List Char) :
    from? (c :: cs) 1 = some cs := by
  have h := from?_append [c] cs
  rwa [bytes_cons, bytes_nil, hc] at h

/-- Markup begins where the slices say it begins. -/
theorem scan_startsMarkup (cs : List Char) : Scan.startsMarkup cs = some (startsMarkup cs) := by
  have hbehind := from?_cons_one (c := '<') (by decide)
  cases cs with
  | nil => rfl
  | cons c cs =>
    by_cases hc : c = '<'
    · subst hc
      cases cs with
      | nil => rfl
      | cons d ds =>
        simp only [Scan.startsMarkup, startsWith, List.isPrefixOf, hbehind, startsMarkup]
        by_cases hslash : d = '/' <;> by_cases hbang : d = '!' <;>
          simp [hslash, hbang, eq_comm (a := '/'), eq_comm (a := '!'), headIs]
    · have hne : ('<' == c) = false := by simpa using Ne.symm hc
      rw [startsMarkup_of_head hc]
      simp [Scan.startsMarkup, startsWith, List.isPrefixOf, hne]

/-! ## The end of a text -/

/-- No markup begins before the character that it begins with. -/
theorem cutAt_startsMarkup_skip {before : List Char} (hbefore : '<' ∉ before) (rest : List Char) :
    Text.cutAt startsMarkup (before ++ rest) =
      (before ++ (Text.cutAt startsMarkup rest).1, (Text.cutAt startsMarkup rest).2) := by
  refine cutAt_skip fun v hv hne => ?_
  obtain ⟨d, ds, rfl⟩ := List.exists_cons_of_ne_nil hne
  apply startsMarkup_of_head
  rintro rfl
  exact hbefore (hv.subset List.mem_cons_self)

namespace Cursor.At

variable {source : List Char} {c c' : Cursor}

/-- In a text without the character that markup begins with, the text goes to the end. -/
theorem offset_cutAt_of_not_mem (h : At source c) (hnone : '<' ∉ c.rest) :
    (c.cutAt startsMarkup).2.offset = bytes source := by
  have hall := cutAt_startsMarkup_skip hnone []
  rw [List.append_nil] at hall
  have hle := h.offset_le
  have hbytes := h.bytes_rest
  show c.offset + bytes (Text.cutAt startsMarkup c.rest).1 = _
  rw [hall]
  simp [Text.cutAt, Text.cutAt?, startsMarkup]
  omega

/-- One round of the search for the end of a text. -/
theorem textRound_eq (h : At source c) :
    (∃ next, At source next ∧ next.rest.length < c.rest.length ∧
      Scan.textRound source c.offset = some (.inl next.offset) ∧
        (c.cutAt startsMarkup).2 = (next.cutAt startsMarkup).2) ∨
    Scan.textRound source c.offset = some (.inr (c.cutAt startsMarkup).2.offset) := by
  rw [Scan.textRound, h]
  simp only [Option.bind_eq_bind, Option.bind_some]
  rcases cutAt?_char_cases '<' c.rest with ⟨hnone, hcut⟩ | ⟨before, tail, hrest, hbefore, hcut⟩
  · right
    rw [find?_eq_none hcut, h.offset_cutAt_of_not_mem hnone]
    rfl
  · have hhere : from? source (c.offset + bytes before) = some ('<' :: tail) := h.behind hrest
    have hskip := cutAt_startsMarkup_skip hbefore ('<' :: tail)
    rw [← hrest] at hskip
    rw [find?_append hcut]
    simp only [hhere, Option.bind_some, scan_startsMarkup]
    by_cases hmarkup : startsMarkup ('<' :: tail) = true
    · right
      have hstop : Text.cutAt startsMarkup ('<' :: tail) = ([], '<' :: tail) := by
        rw [Text.cutAt, Text.cutAt?, if_pos hmarkup]
        rfl
      rw [if_pos hmarkup]
      show _ = some (Sum.inr (c.offset + bytes (Text.cutAt startsMarkup c.rest).1))
      rw [hskip, hstop, List.append_nil]
      rfl
    · left
      refine ⟨⟨c.offset + bytes before + 1, tail⟩, ?_, ?_, ?_, ?_⟩
      · have hrest' : c.rest = (before ++ ['<']) ++ tail := by simpa using hrest
        have hbehind := h.behind hrest'
        rw [bytes_append] at hbehind
        exact hbehind
      · rw [hrest]
        simp
        omega
      · rw [if_neg hmarkup]
        rfl
      · have hstep := cutAt_cons_of_not (Bool.eq_false_iff.mpr hmarkup)
        rw [hstep] at hskip
        simp [Cursor.cutAt, hskip, Nat.add_assoc]
        decide

/-- **The search for the end of a text** finds the next place where markup begins. -/
theorem scan_textEnd (h : At source c) :
    Scan.textEnd source c.offset = some (c.cutAt startsMarkup).2.offset := by
  induction hn : c.rest.length using Nat.strongRecOn generalizing c with
  | ind n ih =>
    subst hn
    rcases h.textRound_eq with ⟨next, hnext, hlt, hround, hcut⟩ | hround
    · have hforward := lt_of_length_lt h hnext hlt
      have hle := hnext.offset_le
      have hleft : bytes source - next.offset < bytes source - c.offset := by omega
      rw [Scan.textEnd, Scan.repeating_next hround hleft, hcut]
      exact ih _ hlt hnext rfl
    · exact Scan.repeating_last hround

end Cursor.At

/-! ## Decoding -/

/-- An ampersand without a reference stays as it is. -/
theorem decode_ampersand {cs : List Char} (h : reference? cs = none) :
    decode ('&' :: cs) = '&' :: decode cs := by
  rw [decode]
  split
  · split
    · simp_all
    · rfl
  · contradiction

/-- The name of a reference reaches to the first semicolon. -/
theorem span_semicolon {name : List Char} (h : ';' ∉ name) (after : List Char) :
    (name ++ ';' :: after).takeWhile (· ≠ ';') = name ∧
      (name ++ ';' :: after).dropWhile (· ≠ ';') = ';' :: after :=
  span_run (fun _ hd => decide_eq_true (ne_of_mem_of_not_mem hd h)) fun _ hd => by
    obtain rfl := Option.mem_some_iff.mp hd
    rfl

theorem dropWhile_semicolon {cs : List Char} (h : ';' ∉ cs) : cs.dropWhile (· ≠ ';') = [] :=
  List.dropWhile_eq_nil_iff.mpr fun _ hd => decide_eq_true (ne_of_mem_of_not_mem hd h)

theorem reference?_append {name : List Char} (h : ';' ∉ name) (after : List Char) :
    reference? (name ++ ';' :: after) =
      if bytes name < reach then (named? name).map fun c => (c, after) else none := by
  obtain ⟨htake, hdrop⟩ := span_semicolon h after
  rw [reference?, htake, hdrop]

/-- **The reference behind an ampersand**, as slices find it: its character and what follows its
semicolon. -/
theorem scan_reference (cs : List Char) :
    (Scan.reference ('&' :: cs) = some none ∧ reference? cs = none) ∨
      ∃ c semicolon after, Scan.reference ('&' :: cs) = some (some (c, semicolon)) ∧
        from? ('&' :: cs) (semicolon + 1) = some after ∧ reference? cs = some (c, after) := by
  have hcut : cutAt? (startsWith [';']) ('&' :: cs) =
      (cutAt? (startsWith [';']) cs).map fun cut => ('&' :: cut.1, cut.2) := rfl
  rcases cutAt?_char_cases ';' cs with ⟨hnone, hc⟩ | ⟨name, after, rfl, hname, hc⟩
  · left
    constructor
    · simp [Scan.reference, find?, hcut, hc]
    · rw [reference?, dropWhile_semicolon hnone]
  · have hfind : find? (startsWith [';']) ('&' :: (name ++ ';' :: after)) = some (1 + bytes name) := by
      rw [find?, hcut, hc]
      rfl
    have hslice : slice? ('&' :: (name ++ ';' :: after)) 1 (1 + bytes name) = some name :=
      slice?_append ['&'] name (';' :: after)
    have hfrom : from? ('&' :: (name ++ ';' :: after)) (1 + bytes name + 1) = some after := by
      have h := from?_append ('&' :: name ++ [';']) after
      rw [List.append_assoc, bytes_append] at h
      exact h
    have hreach : 1 + bytes name ≤ reach ↔ bytes name < reach := by omega
    have hscan : Scan.reference ('&' :: (name ++ ';' :: after)) =
        some (if bytes name < reach then (named? name).map fun c => (c, 1 + bytes name) else none) := by
      simp only [Scan.reference, hfind, hslice, hreach, Option.map_some]
      split <;> rfl
    rw [hscan, reference?_append hname after]
    split
    · cases named? name with
      | none => exact .inl ⟨rfl, rfl⟩
      | some c => exact .inr ⟨c, _, after, rfl, hfrom, rfl⟩
    · exact .inl ⟨rfl, rfl⟩

/-- Decoding from any round on. -/
theorem repeating_decodeRound (cs out : List Char) :
    Scan.repeating (·.1.length) Scan.decodeRound (cs, out) = some (out ++ decode cs) := by
  induction hn : cs.length using Nat.strongRecOn generalizing cs out with
  | ind n ih =>
    subst hn
    rcases cutAt?_char_cases '&' cs with ⟨hnone, hcut⟩ | ⟨before, tail, rfl, hbefore, hcut⟩
    · rw [decode_of_not_mem hnone]
      apply Scan.repeating_last
      simp [Scan.decodeRound, find?_eq_none hcut]
    · have hround : Scan.decodeRound (before ++ '&' :: tail, out) =
          (Scan.reference ('&' :: tail)).bind fun found => match found with
            | some (c, semicolon) =>
              (from? ('&' :: tail) (semicolon + 1)).bind fun after =>
                some (.inl (after, out ++ before ++ [c]))
            | none => some (.inl (tail, out ++ before ++ ['&'])) := by
        have hupTo := upTo?_append before ('&' :: tail)
        have hfrom := from?_append before ('&' :: tail)
        have hone := from?_cons_one (c := '&') (by decide) tail
        simp only [Scan.decodeRound, find?_append hcut, hupTo, hfrom, Option.bind_eq_bind,
          Option.bind_some]
        congr 1
        funext found
        cases found with
        | none => simp [hone]
        | some found => rfl
      rw [decode_append_of_not_mem hbefore]
      rcases scan_reference tail with ⟨hscan, hread⟩ | ⟨c, semicolon, after, hscan, hafter, hread⟩
      · rw [hscan] at hround
        have hlt : tail.length < (before ++ '&' :: tail).length := by
          simp
          omega
        rw [Scan.repeating_next hround hlt, ih _ hlt _ _ rfl, decode_ampersand hread]
        simp
      · rw [hscan, Option.bind_some] at hround
        simp only [hafter, Option.bind_some] at hround
        have hlt : after.length < (before ++ '&' :: tail).length := by
          have := length_lt_of_reference? hread
          simp
          omega
        rw [Scan.repeating_next hround hlt, ih _ hlt _ _ rfl, decode_reference hread]
        simp

/-- **Decoding slice by slice is decoding.** -/
theorem scan_decode (cs : List Char) : Scan.decode cs = some (decode cs) :=
  repeating_decodeRound cs []

/-! ## Attributes -/

namespace Cursor.At

variable {source : List Char} {c c' : Cursor}

/-- The place behind a first character of one byte. -/
theorem drop_one (h : At source c) {d : Char} {ds : List Char} (hrest : c.rest = d :: ds)
    (hd : d.utf8Size = 1) :
    c.drop 1 = ⟨c.offset + 1, ds⟩ ∧ At source ⟨c.offset + 1, ds⟩ := by
  have hdrop : c.drop 1 = ⟨c.offset + 1, ds⟩ := by
    simp [Cursor.drop, hrest, hd]
  refine ⟨hdrop, ?_⟩
  rw [← hdrop]
  exact h.drop 1

/-- **A search from a place on** finds the cut of the rest, and the slice before it. -/
theorem scan_find (h : At source c) (stop : List Char → Bool) :
    (find? stop c.rest = none ∧ c.cutAt? stop = none) ∨
      ∃ taken next, find? stop c.rest = some (bytes taken) ∧ c.cutAt? stop = some (taken, next) ∧
        At source next ∧ next.offset = c.offset + bytes taken ∧ c.rest = taken ++ next.rest ∧
          stop next.rest = true ∧ slice? source c.offset (c.offset + bytes taken) = some taken := by
  cases hcut : Text.cutAt? stop c.rest with
  | none => exact .inl ⟨find?_eq_none hcut, by simp [Cursor.cutAt?, hcut]⟩
  | some cut =>
    obtain ⟨taken, rest⟩ := cut
    have hrest : c.rest = [] ++ (taken ++ rest) := (Text.cutAt?_append hcut).symm
    have hslice := h.slice hrest
    rw [bytes_nil, Nat.add_zero] at hslice
    exact .inr ⟨taken, ⟨c.offset + bytes taken, rest⟩, find?_append hcut,
      by simp [Cursor.cutAt?, hcut], h.behind hrest, rfl, hrest, cutAt?_stops hcut, hslice⟩

/-- The value between two quotes. -/
theorem scan_quoted (h : At source c) {quote : Char} {rest : List Char}
    (hrest : c.rest = quote :: rest) (hquote : quote = '"' ∨ quote = '\'') :
    (find? (startsWith [quote]) rest = none ∧ (c.drop 1).cutAt? (startsWith [quote]) = none) ∨
      ∃ value next, find? (startsWith [quote]) rest = some (bytes value) ∧
        (c.drop 1).cutAt? (startsWith [quote]) = some (value, next) ∧
          slice? source (c.offset + 1) (c.offset + 1 + bytes value) = some value ∧
            (next.drop 1).offset = c.offset + 1 + bytes value + 1 ∧ At source (next.drop 1) := by
  have hsize : quote.utf8Size = 1 := by
    rcases hquote with rfl | rfl <;> decide
  obtain ⟨hdrop, hbody⟩ := h.drop_one hrest hsize
  rw [hdrop]
  rcases hbody.scan_find (startsWith [quote]) with hnone |
      ⟨value, next, hfind, hcut, hnext, hoffset, _, hstop, hslice⟩
  · exact .inl hnone
  · obtain ⟨tail, htail⟩ := startsWith_singleton_iff.mp hstop
    obtain ⟨hdrop', hnext'⟩ := hnext.drop_one htail hsize
    refine .inr ⟨value, next, hfind, hcut, hslice, ?_, ?_⟩
    · rw [hdrop']
      exact congrArg (· + 1) hoffset
    · rw [hdrop']
      exact hnext'

/-- **The value of an attribute**, as slices find it, and the place behind it. -/
theorem scan_value (h : At source c) (name : String) :
    Scan.valueAt source name c.offset =
        some ((readValue name c).map fun result => (result.1, result.2.offset)) ∧
      ∀ result, readValue name c = .ok result → At source result.2 := by
  have hstart := h.skipBlank
  have hfrom : from? source c.skipBlank.offset = some c.skipBlank.rest := hstart
  rw [Scan.valueAt, h.scan_skipBlank, readValue]
  simp only [Option.bind_eq_bind, Option.bind_some, hfrom]
  cases hrest : c.skipBlank.rest with
  | nil =>
    refine ⟨rfl, ?_⟩
    rintro _ ⟨⟩
    exact hstart
  | cons quote rest =>
    simp only [List.head?_cons]
    by_cases hquote : quote = '"' ∨ quote = '\''
    · have hsize : quote.utf8Size = 1 := by
        rcases hquote with rfl | rfl <;> decide
      have hbody : from? source (c.skipBlank.offset + 1) = some rest :=
        (hstart.drop_one hrest hsize).2
      rw [if_pos hquote, if_pos hquote, hbody, Option.bind_some]
      rcases hstart.scan_quoted hrest hquote with ⟨hfind, hcut⟩ |
          ⟨value, next, hfind, hcut, hslice, hoffset, hnext⟩
      · rw [hfind, hcut]
        refine ⟨rfl, ?_⟩
        rintro _ ⟨⟩
      · rw [hfind, hcut]
        simp only [hslice, Option.bind_some, scan_decode]
        refine ⟨?_, ?_⟩
        · simp [Except.map, hoffset]
        · rintro _ ⟨⟩
          exact hnext
    · rw [if_neg hquote, if_neg hquote, hstart.scan_takeWhile]
      simp only [Option.bind_some, scan_decode]
      refine ⟨rfl, ?_⟩
      rintro _ ⟨⟩
      exact hstart.takeWhile isBareValueChar

/-- **One attribute**, as slices find it, and the place behind it. -/
theorem scan_attribute (h : At source c) :
    Scan.attributeAt source c.offset =
        some ((readAttribute c).map fun result => (result.1, result.2.1, result.2.2.offset)) ∧
      ∀ result, readAttribute c = .ok result → At source result.2.2 := by
  have hname := h.takeWhile isAttributeNameChar
  have hnext := hname.skipBlank
  generalize hend : (c.takeWhile isAttributeNameChar).2.skipBlank = next at hnext
  have hskip := hname.scan_skipBlank
  have hfrom : from? source next.offset = some next.rest := hnext
  rw [hend] at hskip
  rw [Scan.attributeAt, h.scan_takeWhile, readAttribute]
  simp only [Option.bind_eq_bind, Option.bind_some, hskip, hfrom, hend]
  by_cases hequals : startsWith ['='] next.rest = true
  · obtain ⟨tail, hrest⟩ := startsWith_singleton_iff.mp hequals
    obtain ⟨hdrop, hvalue⟩ := hnext.drop_one hrest (by decide)
    obtain ⟨hscan, hbehind⟩ :=
      hvalue.scan_value (String.ofList (lower (c.takeWhile isAttributeNameChar).1))
    rw [if_pos hequals, hscan, Option.bind_some, hrest, hdrop]
    cases hread : readValue (String.ofList (lower (c.takeWhile isAttributeNameChar).1))
        ⟨next.offset + 1, tail⟩ with
    | error e =>
      refine ⟨rfl, ?_⟩
      rintro _ ⟨⟩
    | ok result =>
      refine ⟨rfl, ?_⟩
      rintro _ ⟨⟩
      exact hbehind result hread
  · rw [if_neg hequals]
    split
    · rename_i tail hrest
      exact absurd (startsWith_singleton_iff.mpr ⟨tail, hrest⟩) hequals
    · refine ⟨rfl, ?_⟩
      rintro _ ⟨⟩
      exact hnext

end Cursor.At

end BoundView.Markup
