import BoundView.Markup.Parse
import BoundView.Proofs.Markup.Reading

/-!
# Parsing gives back what was rendered

The markup of a well-formed forest parses to that forest, without the live values, which markup does
not hold. The proof follows the forest: in front of the markup of a forest, a parse with any tree
under construction adds the forest to it and goes on behind the markup (`resume_render`).

Main statement: `parse_render`.
-/

namespace BoundView.Markup

open BoundView.Dom (Attributes Content Element)
open BoundView.Text (bytes)

/-- **What markup keeps** of a node: everything but the live value. -/
def written : Content → Content
  | .element e => .element { e with value := none }
  | c => c

/-! ## Going on with a parse -/

/-- The tokens from a place on, when the first is known. -/
theorem lex_token {c next : Cursor} {t : Token} (hc : c.rest ≠ [])
    (hread : read c = .token t next) : lex c = (lex next).cons t := by
  rw [lex, dif_neg hc]
  split
  · rename_i heq
    rw [hread] at heq
    cases heq
    rfl
  · rename_i heq
    rw [hread] at heq
    cases heq
  · rename_i heq
    rw [hread] at heq
    cases heq

namespace Builder

/-- What comes of a tree under construction when the rest of a source is parsed. -/
def resume (b : Builder) (c : Cursor) : (Builder × Option Error) × Option Failure :=
  (b.run (lex c).tokens, (lex c).failure)

/-- **One token read and taken**: the parse goes on behind it. -/
theorem resume_token {b b' : Builder} {c next : Cursor} {t : Token} (hc : c.rest ≠ [])
    (hread : read c = .token t next) (hstep : b.step t = .ok b') :
    b.resume c = b'.resume next := by
  unfold resume
  rw [lex_token hc hread]
  show ((b.run (t :: (lex next).tokens)), (lex next).failure) = _
  rw [run, hstep]

/-- **One token read and refused**: the parse ends. -/
theorem resume_refused {b : Builder} {c next : Cursor} {t : Token} {e : Error} (hc : c.rest ≠ [])
    (hread : read c = .token t next) (hstep : b.step t = .error e) :
    (b.resume c).1 = (b, some e) := by
  unfold resume
  rw [lex_token hc hread]
  show b.run (t :: (lex next).tokens) = _
  rw [run, hstep]

theorem resume_nil (b : Builder) (offset : Nat) : b.resume ⟨offset, []⟩ = ((b, none), none) := by
  have hlex : lex ⟨offset, []⟩ = ⟨[], none⟩ := by
    rw [lex, dif_pos rfl]
  unfold resume
  rw [hlex]
  rfl

theorem add_add (b : Builder) (f g : Nodes) : (b.add f).add g = b.add (f ++ g) := by
  unfold add
  rw [Forest.append_assoc]

theorem add_nil (b : Builder) : b.add .nil = b := by
  unfold add
  rw [Forest.append_nil]

end Builder

/-! ## Boundaries -/

theorem startsMarkup_of_isAlpha {c : Char} (hc : c.isAlpha = true) (cs : List Char) :
    startsMarkup ('<' :: c :: cs) = true := by
  show (c == '/' || c == '!' || c.isAlpha) = true
  rw [hc, Bool.or_true]

theorem boundary_renderOpening {e : Element} (h : IsTag e.tag) (tail : List Char) :
    Boundary (renderOpening e ++ tail) := by
  obtain ⟨c, cs, htag, hc⟩ := h.exists_cons
  right
  unfold renderOpening
  rw [htag]
  exact startsMarkup_of_isAlpha hc _

/-- A forest that does not begin with a text ends a text in front of it. -/
theorem boundary_render {f : Forest Content} (hf : WellFormed f) (hfirst : beginsWithText f = false)
    {tail : List Char} (htail : Boundary tail) : Boundary (render false f ++ tail) := by
  cases f with
  | nil => exact htail
  | node c children rest =>
    cases c with
    | element e =>
      show Boundary (renderOpening e ++ _ ++ _ ++ tail)
      rw [List.append_assoc, List.append_assoc]
      exact boundary_renderOpening hf.1.tag _
    | text data => cases hfirst
    | comment data => exact .inr rfl
    | document => exact hf.elim
    | fragment => exact hf.elim

/-! ## Raw elements -/

/-- No letter becomes `<` in lower case. -/
theorem lt_not_mem_lower {cs : List Char} (h : '<' ∉ cs) : '<' ∉ Text.lower cs := by
  intro hmem
  obtain ⟨c, hc, hlower⟩ := List.mem_map.mp hmem
  unfold Char.toLower at hlower
  split at hlower
  · rename_i hupper
    have hval := congrArg (fun d : Char => d.val.toNat) hlower
    have h1 : 65 ≤ c.val.toNat := UInt32.le_iff_toNat_le.mp hupper.1
    have h2 : c.val.toNat ≤ 90 := UInt32.le_iff_toNat_le.mp hupper.2
    simp only [UInt32.toNat_add] at hval
    have h3 : (c.val.toNat + 32) % 4294967296 = 60 := hval
    omega
  · exact h (hlower ▸ hc)

/-- What a raw element holds is one content, in which its closing tag does not begin and from which
its children are made again. -/
theorem exists_rawContent {tag : String} {children : Forest Content} (hraw : RawContent tag children)
    (hchildren : WellFormed children) :
    ∃ content, render (isVerbatim tag) children = content ∧
      ¬ '<' :: '/' :: tag.toList <:+: Text.lower content ∧
      Builder.contentOf (if isVerbatim tag then content else decode content) =
        children.map written := by
  refine ⟨_, rfl, ?_⟩
  unfold RawContent at hraw
  split at hraw
  · refine ⟨?_, ?_⟩
    · intro hfound
      cases List.infix_nil.mp hfound
    · show Builder.contentOf (if isVerbatim tag then [] else decode []) = .nil
      rw [decode_nil, ite_self]
      rfl
  · rename_i data
    obtain ⟨hne, _⟩ := hchildren
    have hmade : Builder.contentOf data.toList = .single (.text data) := by
      unfold Builder.contentOf
      rw [if_neg, String.ofList_toList]
      rw [List.isEmpty_iff]
      exact hne
    have hrender : render (isVerbatim tag) (.node (.text data) .nil .nil) =
        if isVerbatim tag then data.toList else escape data.toList := by
      show (if isVerbatim tag then _ else _) ++ [] = _
      rw [List.append_nil]
    rw [hrender]
    by_cases hverbatim : isVerbatim tag = true
    · rw [if_pos hverbatim, if_pos hverbatim]
      exact ⟨hraw hverbatim, hmade⟩
    · rw [if_neg hverbatim, if_neg hverbatim, decode_escape]
      refine ⟨fun hfound => ?_, hmade⟩
      have hescape : '<' ∉ escape data.toList := fun hmem => (ne_of_mem_escape hmem).1 rfl
      exact lt_not_mem_lower hescape (hfound.subset List.mem_cons_self)
  · exact hraw.elim

/-! ## The forest -/

/-- **Rendered and read back**: in front of any boundary a parse adds the forest, and goes on. -/
def ReadsBack (f : Forest Content) : Prop :=
  ∀ (b : Builder) (offset : Nat) (tail : List Char), Boundary tail →
    b.resume ⟨offset, render false f ++ tail⟩ =
      (b.add (f.map written)).resume ⟨offset + bytes (render false f), tail⟩

/-- A closing tag gives the open element its children. -/
theorem resume_closing (b : Builder) (offset : Nat) {e : Element} (htag : IsTag e.tag)
    (hvoid : isVoid e.tag = false) (children : Nodes) (tail : List Char) :
    ((b.push e).add children).resume ⟨offset, renderClosing e.tag ++ tail⟩ =
      (b.add (.node (.element e) children .nil)).resume
        ⟨offset + bytes (renderClosing e.tag), tail⟩ := by
  refine Builder.resume_token (List.cons_ne_nil _ _) (read_closing offset htag tail) ?_
  show (if isVoid e.tag then _ else if e.tag = e.tag then _ else _) = _
  rw [hvoid, if_neg Bool.false_ne_true, if_pos rfl]
  rfl

/-- **An element is read back** with its children. -/
theorem resume_element {e : Element} {children : Forest Content} (h : IsElement e children)
    (hchildren : WellFormed children) (ih : ReadsBack children) (b : Builder) (offset : Nat)
    (tail : List Char) :
    b.resume ⟨offset, renderNode false (.element e) (render (isVerbatim e.tag) children) ++ tail⟩ =
      (b.add (.node (written (.element e)) (children.map written) .nil)).resume
        ⟨offset + bytes (renderNode false (.element e) (render (isVerbatim e.tag) children)),
          tail⟩ := by
  have hopening := readOpening_render offset h
  by_cases hvoid : isVoid e.tag = true
  · have hnil := h.void hvoid
    subst hnil
    have hrender : renderNode false (.element e) (render (isVerbatim e.tag) .nil) =
        renderOpening e := by
      show renderOpening e ++ (if isVoid e.tag then _ else _) = _
      rw [if_pos hvoid, List.append_nil]
    have hread := hopening tail
    rw [if_pos hvoid] at hread
    rw [hrender]
    exact Builder.resume_token (List.cons_ne_nil _ _) hread rfl
  · have hrender : renderNode false (.element e) (render (isVerbatim e.tag) children) =
        renderOpening e ++ (render (isVerbatim e.tag) children ++ renderClosing e.tag) := by
      show renderOpening e ++ (if isVoid e.tag then _ else _) = _
      rw [if_neg hvoid]
    rw [hrender, List.append_assoc, List.append_assoc]
    have hread := hopening (render (isVerbatim e.tag) children ++ (renderClosing e.tag ++ tail))
    rw [if_neg hvoid] at hread
    by_cases hraw : isRaw e.tag = true
    · obtain ⟨content, hcontent, hends, hmade⟩ := exists_rawContent (h.raw hraw) hchildren
      rw [if_pos hraw, hcontent, readRaw_render _ _ _ h.tag hends] at hread
      rw [hcontent, Builder.resume_token (List.cons_ne_nil _ _) hread rfl, hmade,
        Text.bytes_append (renderOpening e), Nat.add_assoc]
      rfl
    · have hverbatim : isVerbatim e.tag = false := by
        rw [← Bool.not_eq_true]
        exact fun hv => hraw (isRaw_of_isVerbatim hv)
      rw [if_neg hraw, hverbatim] at hread
      rw [hverbatim, Builder.resume_token (List.cons_ne_nil _ _) hread rfl,
        ih (b.push _) _ _ (.inr rfl)]
      have hclosing := resume_closing (e := { e with value := none }) b
        (offset + bytes (renderOpening e) + bytes (render false children)) h.tag
        (Bool.not_eq_true _ ▸ hvoid) (children.map written) tail
      rw [Text.bytes_append, Text.bytes_append, ← Nat.add_assoc, ← Nat.add_assoc]
      exact hclosing

/-- **A well-formed forest is read back.** -/
theorem resume_render {f : Forest Content} (hf : WellFormed f) : ReadsBack f := by
  induction f with
  | nil =>
    intro b offset tail _
    show _ = (b.add .nil).resume _
    rw [Builder.add_nil]
    rfl
  | node c children rest ihc ihr =>
    intro b offset tail htail
    have hassoc : render false (.node c children rest) ++ tail =
        renderNode false c (render (holdsVerbatim c) children) ++ (render false rest ++ tail) := by
      rw [← List.append_assoc]
      rfl
    have hbytes : bytes (render false (.node c children rest)) =
        bytes (renderNode false c (render (holdsVerbatim c) children)) +
          bytes (render false rest) := Text.bytes_append _ _
    have hadd : b.add (.node (written c) (children.map written) (rest.map written)) =
        (b.add (.node (written c) (children.map written) .nil)).add (rest.map written) := by
      rw [Builder.add_add]
      rfl
    show _ = (b.add (.node (written c) (children.map written) (rest.map written))).resume _
    rw [hassoc, hbytes, hadd, ← Nat.add_assoc]
    cases c with
    | element e =>
      obtain ⟨he, hchildren, hrest⟩ := hf
      exact (resume_element he hchildren (ihc hchildren) b offset _).trans
        (ihr hrest _ _ tail htail)
    | text data =>
      obtain ⟨hne, hnil, hfirst, hrest⟩ := hf
      subst hnil
      have hescape : '<' ∉ escape data.toList := fun hmem => (ne_of_mem_escape hmem).1 rfl
      have hread := read_text offset (escape_ne_nil hne) hescape (boundary_render hrest hfirst htail)
      have hstep : b.step (.text (escape data.toList)) =
          .ok (b.add (.node (.text data) .nil .nil)) := by
        show Except.ok (b.add (.single (.text (String.ofList (decode _))))) = _
        rw [decode_escape, String.ofList_toList]
        rfl
      have hcons : escape data.toList ++ (render false rest ++ tail) ≠ [] :=
        List.append_ne_nil_of_left_ne_nil (escape_ne_nil hne) _
      exact (Builder.resume_token hcons hread hstep).trans (ihr hrest _ _ tail htail)
    | comment data =>
      obtain ⟨hbody, hnil, hrest⟩ := hf
      subst hnil
      have hread := read_comment offset hbody (render false rest ++ tail)
      have hstep : b.step (.comment data.toList) =
          .ok (b.add (.node (.comment data) .nil .nil)) := by
        show Except.ok (b.add (.single (.comment (String.ofList _)))) = _
        rw [String.ofList_toList]
        rfl
      have hcomment : renderNode false (.comment data) (render false .nil) ++
          (render false rest ++ tail) =
          "<!--".toList ++ (data.toList ++ ("-->".toList ++ (render false rest ++ tail))) := by
        unfold renderNode
        rw [List.append_assoc, List.append_assoc]
      show b.resume ⟨offset, renderNode false (.comment data) (render false .nil) ++ _⟩ = _
      rw [hcomment]
      exact (Builder.resume_token (List.cons_ne_nil _ _) hread hstep).trans
        (ihr hrest _ _ tail htail)
    | document => exact hf.elim
    | fragment => exact hf.elim

/-- **Parsing gives back what was rendered**, without a failure. -/
theorem parse_render {f : Forest Content} (hf : WellFormed f) :
    parse (render false f) = ⟨f.map written, none, none⟩ := by
  have h := resume_render hf Builder.empty 0 [] (.inl rfl)
  rw [List.append_nil, Builder.resume_nil] at h
  obtain ⟨hrun, hfailure⟩ := Prod.mk.inj h
  exact parse_eq_of_run hrun hfailure

end BoundView.Markup
