import BoundView.Proofs.Markup.Image
import BoundView.Proofs.Markup.RoundTrip
import BoundView.Proofs.Tree.Reparsing

/-!
# Tags nest by a stack

Markup that is put together from bare tags, texts and comments is read piece by piece, whatever the
case of its letters and however its tags nest. What comes of it is told by a stack of names: an opening
tag puts its name onto the stack, a closing tag takes it off and must name it, void elements and their
closing tags leave the stack alone. The first closing tag that does not fit ends the parse, at the place
where its piece begins; names that are still on the stack at the end are closed there.

The proof goes through the pieces with the stack and the tree under construction side by side: both
describe the same open elements (`Nesting.builder`), in front of each piece one reading step gives the
token of the piece (`read_written`), and both take it alike (`step_token`).

Main statement: `Dom.Document.parse_pieces`.
-/

namespace BoundView.Markup

open BoundView.Dom (Content Document Element)
open BoundView.Text (bytes)

/-! ## Pieces of markup -/

/-- **A piece of markup**, with names in any case of letters. -/
inductive Piece where
  /-- The opening tag of an element that has content. -/
  | opening (name : String)
  /-- The tag of a void element. -/
  | leaf (name : String)
  | closing (name : String)
  | text (data : String)
  | comment (body : String)
  deriving DecidableEq, Repr

namespace Piece

/-- The characters of a piece. -/
def chars : Piece → List Char
  | opening name | leaf name => '<' :: name.toList ++ ['>']
  | closing name => renderClosing name
  | text data => data.toList
  | comment body => "<!--".toList ++ body.toList ++ "-->".toList

/-- **What a piece has to be**: its name is that of a tag of the right kind, a text is not empty and
begins no markup, a comment does not end early. -/
def Lawful : Piece → Prop
  | opening name => IsTagName name ∧ isVoid (Text.lowercase name) = false ∧
      isRaw (Text.lowercase name) = false
  | leaf name => IsTagName name ∧ isVoid (Text.lowercase name) = true
  | closing name => IsTagName name
  | text data => data.toList ≠ [] ∧ '<' ∉ data.toList
  | comment body => ¬ ['-', '-', '>'] <:+: body.toList

instance : (p : Piece) → Decidable p.Lawful
  | opening name => inferInstanceAs (Decidable (IsTagName name ∧ _ ∧ _))
  | leaf name => inferInstanceAs (Decidable (IsTagName name ∧ _))
  | closing name => inferInstanceAs (Decidable (IsTagName name))
  | text data => inferInstanceAs (Decidable (data.toList ≠ [] ∧ _))
  | comment body => inferInstanceAs (Decidable (¬ _ <:+: body.toList))

/-- Whether a piece is a text. -/
def isText : Piece → Bool
  | text _ => true
  | _ => false

/-- The token of a piece that begins at an offset. -/
def token (offset : Nat) : Piece → Token
  | opening name => .opening (Text.lowercase name) []
  | leaf name => .leaf (Text.lowercase name) [] []
  | closing name => .closing (Text.lowercase name) offset
  | text data => .text data.toList
  | comment body => .comment body.toList

/-- Two pieces may follow one another unless both are texts. -/
def MayFollow (p q : Piece) : Prop := ¬ (p.isText = true ∧ q.isText = true)

instance (p q : Piece) : Decidable (p.MayFollow q) := inferInstanceAs (Decidable (¬ _))

end Piece

/-- **The source that pieces make up.** -/
def sourceOf (ps : List Piece) : List Char := ps.flatMap Piece.chars

/-! ## The stack -/

/-- An element of this tag, without attributes. -/
def bare (tag : String) : Content := .element ⟨tag, [], none⟩

/-- **The open elements**: their names, innermost first, each with the trees before it under the same
parent, and the trees inside the innermost one. -/
structure Nesting where
  outer : List (String × Nodes)
  inner : Nodes
  deriving DecidableEq, Repr

namespace Nesting

/-- Nothing is open. -/
def start : Nesting := ⟨[], .nil⟩

/-- One more tree inside the innermost element. -/
def put (n : Nesting) (tree : Nodes) : Nesting := { n with inner := n.inner ++ tree }

/-- **One piece.** A closing tag that does not name the innermost open element is refused, unless it is
that of a void element. -/
def step (n : Nesting) : Piece → Option Nesting
  | .opening name => some ⟨(Text.lowercase name, n.inner) :: n.outer, .nil⟩
  | .leaf name => some (n.put (.single (bare (Text.lowercase name))))
  | .text data => some (n.put (.single (.text (String.ofList (decode data.toList)))))
  | .comment body => some (n.put (.single (.comment body)))
  | .closing name =>
    if isVoid (Text.lowercase name) then some n
    else
      match n.outer with
      | [] => none
      | (tag, before) :: outer =>
        if tag = Text.lowercase name then some ⟨outer, before ++ .node (bare tag) n.inner .nil⟩
        else none

/-- **All pieces**, unless one is refused. -/
def reads (n : Nesting) : List Piece → Option Nesting
  | [] => some n
  | p :: ps => (n.step p).bind fun n => n.reads ps

/-- The trees when every open element closes. -/
def close : List (String × Nodes) → Nodes → Nodes
  | [], inner => inner
  | (tag, before) :: outer, inner => close outer (before ++ .node (bare tag) inner .nil)

/-- **All trees**, every open element closed. -/
def trees (n : Nesting) : Nodes := close n.outer n.inner

/-- **Why a closing tag is refused**: nothing is open, or something else. -/
def complaint (n : Nesting) (found : String) (offset : Nat) : Error :=
  match n.outer with
  | [] => .unexpectedClosing found offset
  | (expected, _) :: _ => .mismatchedClosing expected found offset

/-- The same open elements as a tree under construction. -/
def builder (n : Nesting) : Builder :=
  ⟨n.outer.map fun (tag, before) => ⟨⟨tag, [], none⟩, before⟩, n.inner⟩

/-- **A closing tag that is refused**: it is not that of a void element, and the innermost open element,
if there is one, has another name. -/
def Refuses (n : Nesting) (tag : String) : Prop :=
  isVoid tag = false ∧ ∀ level ∈ n.outer.head?, level.1 ≠ tag

theorem step_closing_eq_none_iff {n : Nesting} {name : String} :
    n.step (.closing name) = none ↔ n.Refuses (Text.lowercase name) := by
  obtain ⟨outer, inner⟩ := n
  unfold step Refuses
  cases outer with
  | nil => by_cases hvoid : isVoid (Text.lowercase name) = true <;> simp [hvoid]
  | cons level outer => by_cases hvoid : isVoid (Text.lowercase name) = true <;> simp [hvoid]

/-- **Pieces that are not all read** are read up to a closing tag that is refused. -/
theorem exists_refused {n : Nesting} {ps : List Piece} (h : n.reads ps = none) :
    ∃ before name after m, ps = before ++ .closing name :: after ∧ n.reads before = some m ∧
      m.Refuses (Text.lowercase name) := by
  induction ps generalizing n with
  | nil => cases h
  | cons p ps ih =>
    cases hstep : n.step p with
    | some m =>
      have hrest : m.reads ps = none := by
        rw [reads, hstep] at h
        exact h
      obtain ⟨before, name, after, m', rfl, hbefore, hrefused⟩ := ih hrest
      refine ⟨p :: before, name, after, m', rfl, ?_, hrefused⟩
      rw [reads, hstep]
      exact hbefore
    | none =>
      cases p with
      | closing name => exact ⟨[], name, ps, n, rfl, rfl, step_closing_eq_none_iff.mp hstep⟩
      | opening name | leaf name | text data | comment body => cases hstep

theorem nodes_builder (n : Nesting) : n.builder.nodes = n.trees := by
  obtain ⟨outer, inner⟩ := n
  show Builder.close (outer.map _) inner = close outer inner
  induction outer generalizing inner with
  | nil => rfl
  | cons level outer ih => exact ih _

/-- **A tree under construction takes the token of a piece** as the stack takes the piece. -/
theorem step_token (n : Nesting) (offset : Nat) (p : Piece) :
    n.builder.step (p.token offset) =
      match n.step p with
      | some m => .ok m.builder
      | none =>
        match p with
        | .closing name => .error (n.complaint (Text.lowercase name) offset)
        | _ => .ok n.builder := by
  obtain ⟨outer, inner⟩ := n
  cases p with
  | opening name => rfl
  | leaf name => rfl
  | text data => rfl
  | comment body =>
    show Except.ok (Builder.add _ (.single (.comment (String.ofList body.toList)))) = _
    rw [String.ofList_toList]
    rfl
  | closing name =>
    show (if isVoid (Text.lowercase name) then _ else _) = _
    unfold step
    by_cases hvoid : isVoid (Text.lowercase name) = true
    · rw [if_pos hvoid]
      dsimp only
      rw [if_pos hvoid]
    · rw [if_neg hvoid]
      dsimp only
      rw [if_neg hvoid]
      cases outer with
      | nil => rfl
      | cons level outer =>
        obtain ⟨tag, before⟩ := level
        show (if tag = Text.lowercase name then _ else _) = _
        by_cases htag : tag = Text.lowercase name
        · rw [if_pos htag]
          dsimp only
          rw [if_pos htag]
          rfl
        · rw [if_neg htag]
          dsimp only
          rw [if_neg htag]
          rfl

end Nesting

/-! ## Reading one piece -/

/-- **A bare opening tag is read** in any case of letters. What comes of it depends on its name. -/
theorem read_bareTag (offset : Nat) {name : String} (h : IsTagName name) (tail : List Char) :
    read ⟨offset, ('<' :: name.toList ++ ['>']) ++ tail⟩ =
      if isVoid (Text.lowercase name) then
        .token (.leaf (Text.lowercase name) [] [])
          ⟨offset + bytes ('<' :: name.toList ++ ['>']), tail⟩
      else if isRaw (Text.lowercase name) then
        readRaw (Text.lowercase name) [] offset ⟨offset + bytes ('<' :: name.toList ++ ['>']), tail⟩
      else .token (.opening (Text.lowercase name) [])
        ⟨offset + bytes ('<' :: name.toList ++ ['>']), tail⟩ := by
  obtain ⟨c, cs, hname, hc⟩ := h.exists_cons
  have hsplit : ('<' :: name.toList ++ ['>']) ++ tail =
      ['<'] ++ (name.toList ++ (['>'] ++ tail)) := by
    simp only [List.cons_append, List.append_assoc, List.nil_append]
  have htaken : ((Cursor.mk offset (('<' :: name.toList ++ ['>']) ++ tail)).drop 1).takeWhile
      isTagNameChar =
        (name.toList, ⟨offset + bytes ['<'] + bytes name.toList, ['>'] ++ tail⟩) := by
    rw [hsplit, Cursor.drop_append (n := 1) offset ['<'] _ rfl]
    refine Cursor.takeWhile_append _ (fun c hc => (h.letter hc).1) fun d hd => ?_
    cases hd
    rfl
  have hskip : (Cursor.mk (offset + bytes ['<'] + bytes name.toList) (['>'] ++ tail)).skipBlank =
      ⟨offset + bytes ['<'] + bytes name.toList, ['>'] ++ tail⟩ := by
    refine Cursor.skipBlank_of_not_blank _ fun d hd => ?_
    cases hd
    rfl
  have hattributes := readAttributes_end offset
    (show Cursor.rest _ = '>' :: tail from congrArg Cursor.rest hskip) []
  rw [hskip, Cursor.drop_append (n := 1) _ ['>'] tail rfl] at hattributes
  have hbytes : offset + bytes ['<'] + bytes name.toList + bytes ['>'] =
      offset + bytes ('<' :: name.toList ++ ['>']) := by
    rw [Nat.add_assoc, Nat.add_assoc, ← Text.bytes_append, ← Text.bytes_append]
    rfl
  have hread : read ⟨offset, ('<' :: name.toList ++ ['>']) ++ tail⟩ =
      readOpening ⟨offset, ('<' :: name.toList ++ ['>']) ++ tail⟩ := by
    rw [hsplit, hname]
    exact read_of_isAlpha offset hc _
  rw [hread]
  unfold readOpening
  rw [htaken]
  dsimp only
  rw [hattributes, hbytes]
  rfl

/-- **Markup begins with every piece but a text.** -/
theorem startsMarkup_chars {p : Piece} (h : p.Lawful) (htext : p.isText = false)
    (tail : List Char) : startsMarkup (p.chars ++ tail) = true := by
  have hname : ∀ {name : String}, IsTagName name →
      startsMarkup (('<' :: name.toList ++ ['>']) ++ tail) = true := by
    intro name hname
    obtain ⟨c, cs, heq, hc⟩ := hname.exists_cons
    rw [heq]
    exact startsMarkup_of_isAlpha hc _
  cases p with
  | text data => cases htext
  | opening name => exact hname h.1
  | leaf name => exact hname h.1
  | closing name => rfl
  | comment body => rfl

/-- **One reading step in front of a piece** gives its token and goes on behind it. -/
theorem read_chars (offset : Nat) {p : Piece} (h : p.Lawful) {tail : List Char}
    (htail : p.isText = true → Boundary tail) :
    read ⟨offset, p.chars ++ tail⟩ = .token (p.token offset) ⟨offset + bytes p.chars, tail⟩ := by
  cases p with
  | opening name =>
    obtain ⟨hname, hvoid, hraw⟩ := h
    refine (read_bareTag offset hname tail).trans ?_
    rw [hvoid, hraw]
    rfl
  | leaf name =>
    obtain ⟨hname, hvoid⟩ := h
    refine (read_bareTag offset hname tail).trans ?_
    rw [hvoid]
    rfl
  | closing name => exact read_closingTag offset h tail
  | text data => exact read_text offset h.1 h.2 (htail rfl)
  | comment body =>
    have hread := read_comment offset h tail
    have hsplit : "<!--".toList ++ (body.toList ++ ("-->".toList ++ tail)) =
        "<!--".toList ++ body.toList ++ "-->".toList ++ tail := by
      simp only [List.append_assoc]
    rw [hsplit] at hread
    exact hread

theorem chars_ne_nil {p : Piece} (h : p.Lawful) : p.chars ≠ [] := by
  cases p with
  | text data => exact h.1
  | opening name | leaf name | closing name => exact List.cons_ne_nil _ _
  | comment body => exact List.cons_ne_nil _ _

/-- Behind a text that no text follows there is a boundary. -/
theorem boundary_sourceOf {ps : List Piece} (hlawful : ∀ p ∈ ps, p.Lawful)
    (hfirst : ∀ q ∈ ps.head?, q.isText = false) : Boundary (sourceOf ps) := by
  cases ps with
  | nil => exact .inl rfl
  | cons q ps =>
    exact .inr (startsMarkup_chars (hlawful q List.mem_cons_self) (hfirst q rfl) (sourceOf ps))

/-! ## Reading all pieces -/

namespace Nesting

/-- **In front of pieces** a parse goes on as the stack says: it has read them all, or it has stopped at
the first that is refused. -/
theorem resume_sourceOf {ps : List Piece} (hlawful : ∀ p ∈ ps, p.Lawful)
    (hchain : ps.IsChain Piece.MayFollow) (n : Nesting) (offset : Nat) :
    (∀ m, n.reads ps = some m →
      n.builder.resume ⟨offset, sourceOf ps⟩ = ((m.builder, none), none)) ∧
    ∀ before name after m, ps = before ++ .closing name :: after → n.reads before = some m →
      m.Refuses (Text.lowercase name) →
        (n.builder.resume ⟨offset, sourceOf ps⟩).1.2 =
          some (m.complaint (Text.lowercase name) (offset + bytes (sourceOf before))) := by
  induction ps generalizing n offset with
  | nil =>
    refine ⟨?_, fun before name after m hsplit => ?_⟩
    · rintro m ⟨⟩
      exact Builder.resume_nil _ _
    · cases before <;> cases hsplit
  | cons p ps ih =>
    have hp := hlawful p List.mem_cons_self
    have hrest := fun q hq => hlawful q (List.mem_cons_of_mem p hq)
    have hboundary : p.isText = true → Boundary (sourceOf ps) := by
      intro htext
      refine boundary_sourceOf hrest fun q hq => ?_
      have hfollow := hchain.rel_head? hq
      exact Bool.eq_false_iff.mpr fun hq => hfollow ⟨htext, hq⟩
    have hread : read ⟨offset, sourceOf (p :: ps)⟩ =
        .token (p.token offset) ⟨offset + bytes p.chars, sourceOf ps⟩ :=
      read_chars offset hp hboundary
    have hne : sourceOf (p :: ps) ≠ [] := fun h => chars_ne_nil hp (List.append_eq_nil_iff.mp h).1
    have hstep := n.step_token offset p
    cases htaken : n.step p with
    | some next =>
      rw [htaken] at hstep
      have hgo := Builder.resume_token hne hread hstep
      obtain ⟨hall, hrefused⟩ := ih hrest hchain.tail next (offset + bytes p.chars)
      refine ⟨fun m hm => ?_, fun before name after m hsplit hbefore hm => ?_⟩
      · rw [reads, htaken] at hm
        rw [hgo]
        exact hall m hm
      · cases before with
        | nil =>
          cases hsplit
          cases hbefore
          exact absurd (htaken.symm.trans (step_closing_eq_none_iff.mpr hm)) (by simp)
        | cons q before =>
          cases hsplit
          rw [reads, htaken] at hbefore
          rw [hgo, hrefused before name after m rfl hbefore hm]
          show _ = some (m.complaint _ (offset + bytes (p.chars ++ sourceOf before)))
          rw [Text.bytes_append, Nat.add_assoc]
    | none =>
      rw [htaken] at hstep
      refine ⟨fun m hm => ?_, fun before name after m hsplit hbefore hm => ?_⟩
      · rw [reads, htaken] at hm
        cases hm
      · cases before with
        | nil =>
          cases hsplit
          cases hbefore
          rw [Builder.resume_refused hne hread hstep]
          rfl
        | cons q before =>
          cases hsplit
          rw [reads, htaken] at hbefore
          cases hbefore

/-- **A parse of pieces that are all read** builds their trees. -/
theorem parse_sourceOf {ps : List Piece} (hlawful : ∀ p ∈ ps, p.Lawful)
    (hchain : ps.IsChain Piece.MayFollow) {n : Nesting} (h : start.reads ps = some n) :
    parse (sourceOf ps) = ⟨n.trees, none, none⟩ := by
  have hresume := (start.resume_sourceOf hlawful hchain 0).1 n h
  obtain ⟨hrun, hfailure⟩ := Prod.mk.inj hresume
  rw [parse_eq_of_run hrun hfailure, n.nodes_builder]

/-- **A parse of pieces one of which is refused** ends there. -/
theorem error_parse_sourceOf {before after : List Piece} {name : String}
    (hlawful : ∀ p ∈ before ++ .closing name :: after, p.Lawful)
    (hchain : (before ++ .closing name :: after).IsChain Piece.MayFollow) {n : Nesting}
    (hbefore : start.reads before = some n) (h : n.Refuses (Text.lowercase name)) :
    (parse (sourceOf (before ++ .closing name :: after))).error =
      some (n.complaint (Text.lowercase name) (bytes (sourceOf before))) := by
  have hresume :=
    (start.resume_sourceOf hlawful hchain 0).2 before name after n rfl hbefore h
  rw [Nat.zero_add] at hresume
  generalize sourceOf (before ++ .closing name :: after) = source at hresume ⊢
  replace hresume : (Builder.empty.run (lex (Cursor.start source)).tokens).2 =
    some (n.complaint (Text.lowercase name) (bytes (sourceOf before))) := hresume
  unfold parse
  dsimp only
  generalize Builder.empty.run (lex (Cursor.start source)).tokens = outcome at hresume ⊢
  obtain ⟨b, failure⟩ := outcome
  subst hresume
  rfl

end Nesting

end BoundView.Markup

namespace BoundView.Dom.Document

open BoundView.Markup (Nesting Piece bare sourceOf)
open BoundView.Text (bytes)

/-- **Tags nest by a stack.** For every sequence of bare tags, texts and comments in which no two texts
stand side by side: if the stack takes all pieces, the source parses to a document with the trees that
the stack has gathered, the open elements closed at the end and the references of the texts decoded. At
the first closing tag that the stack refuses the parse fails, with the lower-case name of the tag and the
bytes before it: as unexpected when nothing is open, else as mismatched with the name of the innermost
open element. There is no other way to fail. -/
theorem parse_pieces {κ : Type} {ps : List Piece} (hlawful : ∀ p ∈ ps, p.Lawful)
    (hchain : ps.IsChain Piece.MayFollow) :
    (∀ n, Nesting.start.reads ps = some n →
      ∃ d : Document κ, Document.parse (String.ofList (sourceOf ps)) = .ok d ∧ d.Coherent ∧
        d.contents (d.children root) = n.trees) ∧
    (∀ before name after n, ps = before ++ .closing name :: after →
      Nesting.start.reads before = some n → n.Refuses (Text.lowercase name) →
        (Document.parse (String.ofList (sourceOf ps)) : Except Markup.Error (Document κ)) =
          .error (n.complaint (Text.lowercase name) (bytes (sourceOf before)))) ∧
    (Nesting.start.reads ps = none →
      ∃ before name after n, ps = before ++ .closing name :: after ∧
        Nesting.start.reads before = some n ∧ n.Refuses (Text.lowercase name)) := by
  refine ⟨?_, ?_, Nesting.exists_refused⟩
  · intro n hn
    apply exists_parse_eq_ok
    rw [String.toList_ofList]
    exact Nesting.parse_sourceOf hlawful hchain hn
  · rintro before name after n rfl hbefore hrefused
    have herror := Nesting.error_parse_sourceOf hlawful hchain hbefore hrefused
    unfold Document.parse parseFragment
    simp only [String.toList_ofList, herror]

/-- Tags in odd cases, a closing tag that means nothing, and elements that do not close. -/
def piecesSample : List Piece :=
  [.opening "Div", .text "a &lt; é", .closing "BR", .text "b", .leaf "Img", .comment "-", .opening "x-y",
    .opening "P", .closing "p"]

theorem parse_pieces_sample :
    (∃ d : Document Unit, Document.parse "<Div>a &lt; é</BR>b<Img><!-----><x-y><P></p>" = .ok d ∧
      d.contents (d.children root) = .node (bare "div")
        (.node (.text "a < é") .nil (.node (.text "b") .nil (.node (bare "img") .nil
          (.node (.comment "-") .nil (.node (bare "x-y") (.single (bare "p")) .nil))))) .nil) ∧
    (Document.parse "<Div>a &lt; é</BR>b<Img><!-----><x-y><P></p></DIV>" :
        Except Markup.Error (Document Unit)) = .error (.mismatchedClosing "x-y" "div" 45) := by
  have hlawful : ∀ p ∈ piecesSample ++ [Piece.closing "DIV"], p.Lawful := by decide +kernel
  have hchain : (piecesSample ++ [Piece.closing "DIV"]).IsChain Piece.MayFollow := by decide +kernel
  have hsource : String.ofList (sourceOf piecesSample) =
    "<Div>a &lt; é</BR>b<Img><!-----><x-y><P></p>" := by decide +kernel
  have hrefused : String.ofList (sourceOf (piecesSample ++ [Piece.closing "DIV"])) =
    "<Div>a &lt; é</BR>b<Img><!-----><x-y><P></p></DIV>" := by decide +kernel
  constructor
  · have hsound : ∀ p ∈ piecesSample, p.Lawful := fun p hp => hlawful p (List.mem_append_left _ hp)
    obtain ⟨d, hd, _, hcontents⟩ := (parse_pieces (κ := Unit) hsound (by decide +kernel)).1 _ rfl
    rw [hsource] at hd
    exact ⟨d, hd, hcontents.trans (by decide +kernel)⟩
  · rw [← hrefused]
    apply ((parse_pieces (κ := Unit) hlawful hchain).2.1 piecesSample "DIV" [] _ rfl rfl _).trans
    · decide +kernel
    · exact Nesting.step_closing_eq_none_iff.mp rfl

end BoundView.Dom.Document
