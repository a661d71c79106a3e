import BoundView.Dom.Content
import BoundView.Markup.Cursor
import BoundView.Markup.Entity
import BoundView.Markup.Error
import BoundView.Markup.Tag

/-!
# Tokens of markup

Markup is read as a list of tokens. The names of tags and attributes are in lower case; of several
attributes of one name the first stays. An element that takes no part in nesting (a void one, one
that closes itself, and one with raw content) is a single token.

Reading stops at the first construct that does not end. The failure says what such a construct
leaves behind: an element whose tag was being read belongs to no parent, a raw element is complete
up to what was read of it.

Main statements: `read_token_lt` and `read_nothing_lt`, every reading step shortens the rest.
-/

namespace BoundView.Markup

open BoundView.Dom (Attributes Element)

/-- **A token.** -/
inductive Token where
  /-- Characters between tags, references not yet decoded. -/
  | text (raw : List Char)
  | comment (body : List Char)
  /-- An opening tag that awaits its closing tag. -/
  | opening (tag : String) (attributes : Attributes)
  /-- An element without inner tags; its content is the text of a raw element, or empty. -/
  | leaf (tag : String) (attributes : Attributes) (content : List Char)
  | closing (tag : String) (offset : Nat)
  deriving DecidableEq, Repr

/-- **Why reading stopped**, and the element that is left without a parent, if there is one. -/
structure Failure where
  error : Error
  orphan : Option Element
  deriving DecidableEq, Repr

/-- **What one reading step finds.** -/
inductive Reading where
  | token (t : Token) (next : Cursor)
  /-- A construct that leaves nothing in the document. -/
  | nothing (next : Cursor)
  /-- A construct that does not end, and the token that was complete before it. -/
  | failed (last : Option Token) (failure : Failure)
  deriving DecidableEq, Repr

/-- Whether a tag, a comment or a declaration begins here. -/
def startsMarkup : List Char → Bool
  | '<' :: d :: _ => d == '/' || d == '!' || d.isAlpha
  | _ => false

/-- A text up to the next place where markup begins. Its first character is taken as it is. -/
def readText (c : Cursor) : Reading :=
  let (before, next) := (c.drop 1).cutAt startsMarkup
  .token (.text (c.rest.take 1 ++ before)) next

/-- A comment, from `<!--` to `-->`. -/
def readComment (c : Cursor) : Reading :=
  match (c.drop 4).cutAt? (Text.startsWith ['-', '-', '>']) with
  | some (body, next) => .token (.comment body) (next.drop 3)
  | none => .failed none ⟨.unterminatedComment c.offset, none⟩

/-- A declaration, from `<!` to the next `>`. -/
def readDeclaration (c : Cursor) : Reading :=
  match (c.drop 2).cutAt? (Text.startsWith ['>']) with
  | some (_, next) => .nothing (next.drop 1)
  | none => .failed none ⟨.unexpectedEnd c.offset, none⟩

/-- A closing tag, from `</` to the next `>`. -/
def readClosing (c : Cursor) : Reading :=
  match (c.drop 2).cutAt? (Text.startsWith ['>']) with
  | some (name, next) =>
    .token (.closing (String.ofList (Text.lower (Text.trim name))) c.offset) (next.drop 1)
  | none => .failed none ⟨.unexpectedEnd c.offset, none⟩

/-! ## Attributes -/

/-- The characters of an attribute's name. -/
def isAttributeNameChar (d : Char) : Bool :=
  !Text.isBlank d && d != '=' && d != '>' && d != '/'

/-- The characters of a value without quotes. -/
def isBareValueChar (d : Char) : Bool := !Text.isBlank d && d != '>'

/-- The value of an attribute, from behind its equals sign. -/
def readValue (name : String) (c : Cursor) : Except Error (List Char × Cursor) :=
  let c := c.skipBlank
  match c.rest with
  | [] => .ok ([], c)
  | d :: _ =>
    if d = '"' ∨ d = '\'' then
      match (c.drop 1).cutAt? (Text.startsWith [d]) with
      | some (value, next) => .ok (decode value, next.drop 1)
      | none => .error (.unterminatedAttribute name c.offset)
    else
      let (value, next) := c.takeWhile isBareValueChar
      .ok (decode value, next)

/-- One attribute, from its name on. -/
def readAttribute (c : Cursor) : Except Error (String × List Char × Cursor) :=
  let (name, next) := c.takeWhile isAttributeNameChar
  let name := String.ofList (Text.lower name)
  let next := next.skipBlank
  match next.rest with
  | '=' :: _ => (readValue name (next.drop 1)).map fun (value, next) => (name, value, next)
  | _ => .ok (name, [], next)

theorem readValue_le {name : String} {c next : Cursor} {value : List Char}
    (h : readValue name c = .ok (value, next)) : next.rest.length ≤ c.rest.length := by
  have hs := c.length_skipBlank_le
  simp only [readValue] at h
  split at h
  · cases h; exact hs
  · split at h
    · split at h
      · rename_i cut
        cases h
        have := Cursor.length_cutAt?_le _ cut
        simp only [Cursor.length_drop] at this ⊢
        omega
      · cases h
    · cases h
      exact Nat.le_trans (Cursor.length_takeWhile_le _ _) hs

/-- Reading an attribute shortens the rest: its name is not empty, or its equals sign is read. -/
theorem readAttribute_lt {c next : Cursor} {name : String} {value : List Char} {d : Char}
    {ds : List Char} (hrest : c.rest = d :: ds) (hblank : Text.isBlank d = false) (hend : d ≠ '>')
    (hslash : d ≠ '/') (h : readAttribute c = .ok (name, value, next)) :
    next.rest.length < c.rest.length := by
  have hs := Cursor.length_skipBlank_le (c.takeWhile isAttributeNameChar).2
  have hle := c.length_takeWhile_le isAttributeNameChar
  simp only [readAttribute] at h
  split at h
  · rename_i tail heq
    cases hv : readValue (String.ofList (Text.lower (c.takeWhile isAttributeNameChar).1))
        ((c.takeWhile isAttributeNameChar).2.skipBlank.drop 1) with
    | error e => simp [hv, Except.map] at h
    | ok pair =>
      simp only [hv, Except.map, Except.ok.injEq, Prod.mk.injEq] at h
      obtain ⟨_, _, rfl⟩ := h
      have : pair.2.rest.length ≤ _ := readValue_le hv
      simp only [Cursor.length_drop, heq, List.length_cons] at this hs
      omega
  · rename_i hne
    simp only [Except.ok.injEq, Prod.mk.injEq] at h
    obtain ⟨_, _, rfl⟩ := h
    by_cases hd : isAttributeNameChar d = true
    · have := c.length_takeWhile_lt hrest hd
      omega
    · exfalso
      have heq : d = '=' := by simpa [isAttributeNameChar, hblank, hend, hslash] using hd
      have hcut : (c.takeWhile isAttributeNameChar).2.rest = d :: ds := by
        simp [Cursor.takeWhile, hrest, hd]
      have : (c.takeWhile isAttributeNameChar).2.skipBlank.rest = d :: ds := by
        simp [Cursor.skipBlank, Cursor.takeWhile, hrest, hd, hblank]
      exact hne ds (by rw [this, heq])

/-- No blank stands behind skipped blanks. -/
theorem isBlank_of_skipBlank {c : Cursor} {d : Char} {ds : List Char}
    (h : c.skipBlank.rest = d :: ds) : Text.isBlank d = false := by
  have hd := List.head?_dropWhile_not Text.isBlank c.rest
  simp only [Cursor.skipBlank, Cursor.takeWhile] at h
  rw [h] at hd
  simpa using hd

theorem drop_one_skipBlank_lt {c : Cursor} {d : Char} {ds : List Char}
    (h : c.skipBlank.rest = d :: ds) : (c.skipBlank.drop 1).rest.length < c.rest.length := by
  have hle := c.length_skipBlank_le
  have hlen : c.skipBlank.rest.length = ds.length + 1 := congrArg List.length h
  simp only [Cursor.length_drop]
  omega

theorem readAttribute_skipBlank_lt {c next : Cursor} {name : String} {value : List Char} {d : Char}
    {ds : List Char} (hrest : c.skipBlank.rest = d :: ds) (hend : d ≠ '>') (hslash : d ≠ '/')
    (h : readAttribute c.skipBlank = .ok (name, value, next)) :
    next.rest.length < c.rest.length :=
  Nat.lt_of_lt_of_le (readAttribute_lt hrest (isBlank_of_skipBlank hrest) hend hslash h)
    c.length_skipBlank_le

/-- **The attributes of a tag** up to its end, and whether the tag closes itself. On failure the
attributes before the failing one are kept. -/
def readAttributes (start : Nat) (c : Cursor) (before : Attributes) :
    Attributes × Except Error (Bool × Cursor) :=
  match hrest : c.skipBlank.rest with
  | [] => (before, .error (.unexpectedEnd start))
  | d :: ds =>
    if hend : d = '>' then (before, .ok (false, c.skipBlank.drop 1))
    else if hslash : d = '/' then
      if ds.head? = some '>' then (before, .ok (true, c.skipBlank.drop 2))
      else
        have := drop_one_skipBlank_lt hrest
        readAttributes start (c.skipBlank.drop 1) before
    else
      match h : readAttribute c.skipBlank with
      | .error e => (before, .error e)
      | .ok (name, value, next) =>
        have := readAttribute_skipBlank_lt hrest hend hslash h
        readAttributes start next (before.addNew name (String.ofList value))
termination_by c.rest.length

/-! ## Opening tags -/

/-- The characters of a tag's name. -/
def isTagNameChar (d : Char) : Bool := d.isAlphanum || d == '-' || d == ':'

/-- Whether a rest begins with the closing tag of a raw element, in any case of letters. -/
def closesRaw (tag : String) (cs : List Char) : Bool :=
  let close := '<' :: '/' :: tag.toList
  Text.lower (cs.take close.length) == close

/-- The content of a raw element and its closing tag; `start` is the offset of its opening tag. -/
def readRaw (tag : String) (attributes : Attributes) (start : Nat) (c : Cursor) : Reading :=
  match c.cutAt? (closesRaw tag) with
  | none => .failed (some (.leaf tag attributes [])) ⟨.unexpectedEnd start, none⟩
  | some (raw, close) =>
    let leaf := Token.leaf tag attributes (if isVerbatim tag then raw else decode raw)
    match close.cutAt? (Text.startsWith ['>']) with
    | some (_, next) => .token leaf (next.drop 1)
    | none => .failed (some leaf) ⟨.unexpectedEnd close.offset, none⟩

/-- An opening tag, and the content of a raw element. -/
def readOpening (c : Cursor) : Reading :=
  let (name, next) := (c.drop 1).takeWhile isTagNameChar
  let tag := String.ofList (Text.lower name)
  match readAttributes c.offset next [] with
  | (attributes, .error e) => .failed none ⟨e, some ⟨tag, attributes, none⟩⟩
  | (attributes, .ok (closed, next)) =>
    if closed || isVoid tag then .token (.leaf tag attributes []) next
    else if isRaw tag then readRaw tag attributes c.offset next
    else .token (.opening tag attributes) next

/-- **One reading step.** -/
def read (c : Cursor) : Reading :=
  match c.rest with
  | '<' :: '!' :: '-' :: '-' :: _ => readComment c
  | '<' :: '/' :: _ => readClosing c
  | '<' :: '!' :: _ => readDeclaration c
  | '<' :: d :: _ => if d.isAlpha then readOpening c else readText c
  | _ => readText c

/-! ## Every step shortens the rest -/

theorem readAttributes_le {start : Nat} {c next : Cursor} {before after : Attributes}
    {closed : Bool} (h : readAttributes start c before = (after, .ok (closed, next))) :
    next.rest.length ≤ c.rest.length := by
  fun_induction readAttributes start c before with
  | case1 => simp at h
  | case2 c before =>
    simp only [Prod.mk.injEq, Except.ok.injEq] at h
    obtain ⟨_, _, rfl⟩ := h
    have := c.length_skipBlank_le
    simp only [Cursor.length_drop]
    omega
  | case3 c before =>
    simp only [Prod.mk.injEq, Except.ok.injEq] at h
    obtain ⟨_, _, rfl⟩ := h
    have := c.length_skipBlank_le
    simp only [Cursor.length_drop]
    omega
  | case4 c before ds hhead hrest hslash hlt ih => exact Nat.le_of_lt (Nat.lt_of_le_of_lt (ih h) hlt)
  | case5 => simp at h
  | case6 c before d ds hrest hend hslash name value next' hr hlt ih =>
    exact Nat.le_of_lt (Nat.lt_of_le_of_lt (ih h) hlt)

theorem readRaw_le {tag : String} {attributes : Attributes} {start : Nat} {c next : Cursor}
    {t : Token} (h : readRaw tag attributes start c = .token t next) :
    next.rest.length ≤ c.rest.length := by
  simp only [readRaw] at h
  split at h
  · cases h
  · rename_i raw close hcut
    split at h
    · rename_i hclose
      cases h
      have h1 := Cursor.length_cutAt?_le _ hcut
      have h2 := Cursor.length_cutAt?_le _ hclose
      simp only [Cursor.length_drop]
      omega
    · cases h

/-- **A token shortens the rest.** -/
theorem read_token_lt {c next : Cursor} {t : Token} (hc : c.rest ≠ [])
    (h : read c = .token t next) : next.rest.length < c.rest.length := by
  have hpos : 0 < c.rest.length := List.length_pos_iff.mpr hc
  have text (h : readText c = .token t next) : next.rest.length < c.rest.length := by
    simp only [readText, Reading.token.injEq] at h
    obtain ⟨_, rfl⟩ := h
    have := (c.drop 1).length_cutAt_le startsMarkup
    simp only [Cursor.length_drop] at this
    omega
  have opening (h : readOpening c = .token t next) : next.rest.length < c.rest.length := by
    have hname := (c.drop 1).length_takeWhile_le isTagNameChar
    simp only [Cursor.length_drop] at hname
    simp only [readOpening] at h
    split at h
    · cases h
    · rename_i hattributes
      have hattr := readAttributes_le hattributes
      split at h
      · cases h
        omega
      · split at h
        · have := readRaw_le h
          omega
        · cases h
          omega
  unfold read at h
  split at h
  · simp only [readComment] at h
    split at h
    · rename_i hcut
      cases h
      exact c.length_drop_cutAt?_lt _ hc (by decide) hcut
    · cases h
  · simp only [readClosing] at h
    split at h
    · rename_i hcut
      cases h
      exact c.length_drop_cutAt?_lt _ hc (by decide) hcut
    · cases h
  · simp only [readDeclaration] at h
    split at h <;> cases h
  · split at h
    · exact opening h
    · exact text h
  · exact text h

/-- **So does a construct that leaves nothing.** -/
theorem read_nothing_lt {c next : Cursor} (hc : c.rest ≠ []) (h : read c = .nothing next) :
    next.rest.length < c.rest.length := by
  have hpos : 0 < c.rest.length := List.length_pos_iff.mpr hc
  have raw (tag : String) (attributes : Attributes) (start : Nat) (c' : Cursor) :
      readRaw tag attributes start c' ≠ .nothing next := by
    simp only [readRaw]
    split
    · simp
    · split <;> simp
  unfold read at h
  split at h
  · simp only [readComment] at h
    split at h <;> cases h
  · simp only [readClosing] at h
    split at h <;> cases h
  · simp only [readDeclaration] at h
    split at h
    · rename_i hcut
      cases h
      exact c.length_drop_cutAt?_lt _ hc (by decide) hcut
    · cases h
  · split at h
    · simp only [readOpening] at h
      split at h
      · cases h
      · split at h
        · cases h
        · split at h
          · exact absurd h (raw _ _ _ _)
          · cases h
    · cases h
  · cases h

/-! ## The whole source -/

/-- **The tokens of a source**, and why reading stopped before its end. -/
structure Lexed where
  tokens : List Token
  failure : Option Failure
  deriving DecidableEq, Repr

/-- One more token in front. -/
def Lexed.cons (t : Token) (l : Lexed) : Lexed := { l with tokens := t :: l.tokens }

/-- **Reads from a place to the end.** -/
def lex (c : Cursor) : Lexed :=
  if hc : c.rest = [] then ⟨[], none⟩
  else
    match h : read c with
    | .token t next =>
      have := read_token_lt hc h
      (lex next).cons t
    | .nothing next =>
      have := read_nothing_lt hc h
      lex next
    | .failed last failure => ⟨last.toList, some failure⟩
termination_by c.rest.length

/-- **Each token of a source is given by a reading step** in front of more to read, as its token or as
the last one of a failure. -/
theorem exists_read_of_mem_tokens {c : Cursor} {t : Token} (h : t ∈ (lex c).tokens) :
    ∃ c', c'.rest ≠ [] ∧
      ((∃ next, read c' = .token t next) ∨ ∃ f, read c' = .failed (some t) f) := by
  fun_induction lex c with
  | case1 => cases h
  | case2 c hc s next hread _ ih =>
    rcases List.mem_cons.mp h with rfl | h
    · exact ⟨c, hc, .inl ⟨next, hread⟩⟩
    · exact ih h
  | case3 _ _ _ _ _ ih => exact ih h
  | case4 c hc last f hread =>
    obtain rfl := Option.mem_toList.mp h
    exact ⟨c, hc, .inr ⟨f, hread⟩⟩

/-- **A failure of a source is that of a reading step.** -/
theorem exists_read_of_failure {c : Cursor} {f : Failure} (h : (lex c).failure = some f) :
    ∃ c' last, read c' = .failed last f := by
  fun_induction lex c with
  | case1 => cases h
  | case2 _ _ _ _ _ _ ih => exact ih h
  | case3 _ _ _ _ _ ih => exact ih h
  | case4 c _ last _ hread =>
    cases h
    exact ⟨c, last, hread⟩

end BoundView.Markup
