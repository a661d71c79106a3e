import BoundView.Proofs.Markup.Image
import BoundView.Proofs.Tree.Grafting
import BoundView.Proofs.Tree.Stepwise

/-!
# The stepwise parse and the parsed forest

The stepwise parse keeps a document, the parse to a forest keeps a builder. They go in step: the
document is the one with the builder's forest in a fragment, the open nodes are those of the builder's
open elements, and the place is that of the cursor (`site`). One construct takes both on, or stops both
at one error with one document (`Meets`).

Main statements: `construct_meets`, and `Document.stepwise_eq`, the stepwise parse is refused on no
document and no text and does what `parseFragment` does.
-/

namespace BoundView.Dom

open BoundView.Markup
open BoundView.Markup.Cursor (At)
open BoundView.Text (bytes find? from? headIs lower slice? startsWith trim)

variable {κ : Type}

/-! ## The document of a builder -/

/-- The node of the innermost open element in the fragment behind a document's nodes. -/
def Document.openHandle (d : Document κ) (stack : List Open) : Nat :=
  Document.openNode (d.size + 1) d.size stack

/-- The nodes and tags of open elements. -/
def Document.handles (d : Document κ) : List Open → List (NodeId × String)
  | [] => []
  | o :: stack => (d.openHandle (o :: stack), o.element.tag) :: d.handles stack

/-- **The stepwise parse where a builder stands.** -/
def site (d : Document κ) (b : Builder) (pos : Nat) : Site κ :=
  ⟨d.graft b.nodes, pos, d.handles b.stack⟩

section Graft

variable (d : Document κ) (b : Builder)

@[simp] theorem site_document (pos : Nat) : (site d b pos).document = d.graft b.nodes := rfl

@[simp] theorem site_pos (pos : Nat) : (site d b pos).pos = pos := rfl

@[simp] theorem site_stack (pos : Nat) : (site d b pos).stack = d.handles b.stack := rfl

theorem size_graft (nodes : Nodes) : (d.graft nodes).size = d.size + 1 + nodes.size := by
  unfold Document.graft
  rw [Document.size_plant, Document.size_push, Forest.size_map]

theorem current_site (pos : Nat) : (site d b pos).current d.size = d.openHandle b.stack := by
  unfold site Site.current
  cases b.stack <;> rfl

/-- The innermost open element, or the fragment, is a new node that may have children. -/
theorem openHandle_spec :
    d.size ≤ d.openHandle b.stack ∧ d.openHandle b.stack < (d.graft b.nodes).size ∧
      ((d.graft b.nodes).content (d.openHandle b.stack)).isContainer = true := by
  have hfragment : d.size < (d.push .fragment).size := by simp
  obtain ⟨stack, inner⟩ := b
  cases stack with
  | nil =>
    have hslot := d.getElem?_plant_fragment (inner.map (Seed.plain (κ := κ)))
    have hcontent : (d.graft inner).content d.size = .fragment := Document.content_of_getElem? hslot
    refine ⟨Nat.le_refl _, ?_, ?_⟩
    · rw [size_graft]
      simp only [Document.openHandle, Document.openNode]
      omega
    · show ((d.graft inner).content d.size).isContainer = true
      rw [hcontent]
      rfl
  | cons o stack =>
    have hlt := (d.push .fragment).openNode_lt hfragment (o :: stack) inner
    have hcontent := (d.push .fragment).content_openNode hfragment o stack inner
    rw [Document.size_push] at hlt hcontent
    refine ⟨?_, ?_, ?_⟩
    · simp only [Document.openHandle, Document.openNode]
      omega
    · rw [size_graft]
      exact hlt
    · exact (congrArg Content.isContainer hcontent).trans rfl

/-- Nothing above a new node is as new as the next node. -/
theorem lt_of_mem_ancestors_push {nodes : Nodes} (content : Content) {p a : Nat} (hp : d.size ≤ p)
    (hlt : p < (d.graft nodes).size) (ha : a ∈ ((d.graft nodes).push content).ancestors p) :
    a < (d.graft nodes).size := by
  have hfragment : d.size < (d.push .fragment).size := by simp
  have hlink : ∀ x q : Nat, (d.size ≤ x ∧ x < (d.graft nodes).size) →
      ((d.graft nodes).push content).parent? x = some q → d.size ≤ q ∧ q < (d.graft nodes).size := by
    rintro x q ⟨hx, hx'⟩ hq
    rw [Document.parent?_push] at hq
    refine ⟨(d.extends_plant (nodes.map Seed.plain)).parent_ge hx hq, ?_⟩
    rcases Document.parent?_plant_cases _ hfragment _ hq with hold | ⟨_, hqx⟩
    · rw [Document.parent?_push] at hold
      exact absurd (d.lt_size_of_parent? hold) (Nat.not_lt.mpr hx)
    · exact Nat.lt_trans hqx hx'
  exact (Document.of_mem_ancestors hlink ⟨hp, hlt⟩ ha).2

/-- **A node that is made now can be appended to the innermost open element**: the builder has it in
the same place. -/
theorem append_graft_push (content : Content) (hother : content ≠ .fragment) :
    ((d.graft b.nodes).push content).append (d.openHandle b.stack) (d.graft b.nodes).size =
      .ok (d.graft (b.add (.single content)).nodes) := by
  have hfragment : d.size < (d.push .fragment).size := by simp
  obtain ⟨hge, hlt, hcontainer⟩ := openHandle_spec d b
  have hplant := (d.push .fragment).plant_close hfragment b.stack b.inner (.single content)
  rw [Document.size_push] at hplant
  rw [Document.append_push _ hlt hcontainer hother]
  · exact congrArg Except.ok hplant.symm
  · intro a ha
    exact lt_of_mem_ancestors_push d content hge hlt ha

theorem add_site (content : Content) (hother : content ≠ .fragment) (pos : Nat) :
    (site d b pos).add d.size content = some (d.graft (b.add (.single content)).nodes) := by
  unfold Site.add Site.attach
  rw [current_site]
  show (((d.graft b.nodes).push content).append _ (d.graft b.nodes).size).toOption = _
  rw [append_graft_push d b content hother]
  rfl

end Graft

/-! ## Attributes of the element that was made last -/

/-- Changing the element that was made last. -/
theorem Document.modifyElement_push (d : Document κ) (e : Element) (f : Element → Element) :
    (d.push (.element e)).modifyElement d.size f = d.push (.element (f e)) := by
  refine Document.ext_slots (fun x => ?_) rfl
  unfold Document.modifyElement
  rw [Document.getElem?_modify, Document.getElem?_push, Document.getElem?_push]
  by_cases hx : x = d.size
  · simp [hx, Node.detached, Content.mapElement]
  · simp [hx, Ne.symm hx]

/-- **Setting attributes one by one keeps the first of each name.** -/
theorem setNew_push (d : Document κ) (e : Element) (name value : String) :
    Site.setNew (d.push (.element e)) d.size name value =
      some (d.push (.element { e with attributes := e.attributes.addNew name value })) := by
  have hslot : (d.push (.element e)).nodes[d.size]? = some (.detached (.element e)) := by
    rw [Document.getElem?_push, if_pos rfl]
  have hcontent : (d.push (.element e)).content d.size = .element e :=
    Document.content_of_getElem? hslot
  unfold Site.setNew Attributes.addNew
  rw [hcontent]
  show (if (name.isEmpty || (e.attributes.get? name).isSome) = true then _ else _) = _
  split
  · rfl
  · rename_i hnew
    have hname : name ∉ e.attributes.names := by
      rw [← Attributes.get?_eq_none_iff]
      simp at hnew
      exact hnew.2
    unfold Document.setAttribute
    rw [(Document.node_eq_ok_iff _).mpr hslot]
    show some ((d.push (.element e)).modifyElement d.size _) = _
    rw [d.modifyElement_push, Attributes.set_of_not_mem hname]

/-! ## The attribute loop -/

/-- What the attribute loop answers for what the reader answers. -/
def tagEnd (d : Document κ) (tag : String) :
    Attributes × Except Markup.Error (Bool × Cursor) → Except (Stop κ) (Bool × Document κ × Nat)
  | (attributes, .error e) => .error (e, d.push (.element ⟨tag, attributes, none⟩))
  | (attributes, .ok (closed, next)) =>
    .ok (closed, d.push (.element ⟨tag, attributes, none⟩), next.offset)

section Attributes

variable {source : List Char} {c : Cursor} (d : Document κ) (tag : String) (start : Nat)
  (before : Attributes)

/-- What a round of the attribute loop sees behind the blanks. -/
theorem attributeRound_eq (h : At source c) (s : Document κ) :
    Site.attributeRound source start d.size (s, c.offset) =
      if c.skipBlank.rest.isEmpty then some (.inr (.error (.unexpectedEnd start, s)))
      else if startsWith ['/', '>'] c.skipBlank.rest then
        (Scan.forward? source c.offset (c.skipBlank.offset + 2)).bind fun next =>
          some (.inr (.ok (true, s, next)))
      else if startsWith ['>'] c.skipBlank.rest then
        (Scan.forward? source c.offset (c.skipBlank.offset + 1)).bind fun next =>
          some (.inr (.ok (false, s, next)))
      else if startsWith ['/'] c.skipBlank.rest then
        (Scan.forward? source c.offset (c.skipBlank.offset + 1)).bind fun next => some (.inl (s, next))
      else match readAttribute c.skipBlank with
        | .error e => some (.inr (.error (e, s)))
        | .ok (name, value, next) =>
          (Site.setNew s d.size name (String.ofList value)).bind fun s =>
            (Scan.forward? source c.offset next.offset).bind fun next => some (.inl (s, next)) := by
  have hskip := h.skipBlank
  have hfrom : from? source c.skipBlank.offset = some c.skipBlank.rest := hskip
  unfold Site.attributeRound
  simp only [h.scan_skipBlank, hfrom, (hskip.scan_attribute).1, Option.bind_eq_bind,
    Option.bind_some]
  cases readAttribute c.skipBlank <;> rfl

/-- A round that goes on leaves less to read. -/
theorem attributes_next {c' : Cursor} {s s' : Document κ} (h : At source c) (h' : At source c')
    (hlt : c'.rest.length < c.rest.length)
    (hround : Site.attributeRound source start d.size (s, c.offset) = some (.inl (s', c'.offset))) :
    Site.attributes source start d.size s c.offset =
      Site.attributes source start d.size s' c'.offset := by
  have hforward := Text.lt_of_length_lt h h' hlt
  have hle := h'.offset_le
  apply Scan.repeating_next hround
  show bytes source - c'.offset < bytes source - c.offset
  omega

/-- **The attribute loop reads the attributes of the tag**, and each of its rounds goes forward. -/
theorem attributes_eq (h : At source c) :
    Site.attributes source start d.size (d.push (.element ⟨tag, before, none⟩)) c.offset =
        some (tagEnd d tag (readAttributes start c before)) ∧
      ∀ after closed next, readAttributes start c before = (after, .ok (closed, next)) →
        At source next := by
  fun_induction readAttributes start c before with
  | case1 c before hrest =>
    refine ⟨Scan.repeating_last ?_, fun _ _ _ hnext => by cases hnext⟩
    rw [attributeRound_eq d start h, hrest]
    rfl
  | case2 c before ds hrest =>
    obtain ⟨hdrop, hnext⟩ := h.skipBlank.drop_one hrest (by decide)
    have hlt := drop_one_skipBlank_lt hrest
    rw [hdrop] at hlt ⊢
    have hforward := h.forward hnext hlt
    refine ⟨Scan.repeating_last ?_, ?_⟩
    · rw [attributeRound_eq d start h, hrest]
      simp [startsWith, List.isPrefixOf, hforward, tagEnd]
    · rintro _ _ _ ⟨⟩
      exact hnext
  | case3 c before ds hhead hrest =>
    obtain ⟨tail, rfl⟩ := List.head?_eq_some_iff.mp hhead
    have hnext := h.skipBlank.drop 2
    have hlt : (c.skipBlank.drop 2).rest.length < c.rest.length := by
      have hle := c.length_skipBlank_le
      have hlen := congrArg List.length hrest
      simp only [Cursor.length_drop, List.length_cons] at hlen ⊢
      omega
    have hoffset : (c.skipBlank.drop 2).offset = c.skipBlank.offset + 2 := by
      simp only [Cursor.drop, hrest]
      rfl
    have hforward := h.forward hnext hlt
    refine ⟨Scan.repeating_last ?_, ?_⟩
    · rw [attributeRound_eq d start h, hrest]
      rw [hoffset] at hforward
      simp [startsWith, List.isPrefixOf, hforward, tagEnd, hoffset]
    · rintro _ _ _ ⟨⟩
      exact hnext
  | case4 c before ds hhead hrest hend hlt ih =>
    obtain ⟨hdrop, hnext⟩ := h.skipBlank.drop_one hrest (by decide)
    rw [hdrop] at hlt ih ⊢
    have hforward := h.forward hnext hlt
    have hround : Site.attributeRound source start d.size
        (d.push (.element ⟨tag, before, none⟩), c.offset) =
          some (.inl (d.push (.element ⟨tag, before, none⟩), c.skipBlank.offset + 1)) := by
      have hslash : startsWith ['/', '>'] ('/' :: ds) = false := by
        rw [Bool.eq_false_iff, Ne, Text.startsWith_eq_true_iff, List.cons_prefix_cons,
          List.prefix_iff_exists_eq_append]
        rintro ⟨_, tail, rfl⟩
        exact hhead rfl
      rw [attributeRound_eq d start h, hrest, hslash]
      simp [startsWith, List.isPrefixOf, hforward]
    rw [attributes_next d start h hnext hlt hround]
    exact ih hnext
  | case5 c before first ds hrest hend hslash e hread =>
    refine ⟨Scan.repeating_last ?_, fun _ _ _ hnext => by cases hnext⟩
    rw [attributeRound_eq d start h, hrest, hread]
    simp [startsWith, List.isPrefixOf, tagEnd, beq_false_of_ne (Ne.symm hend),
      beq_false_of_ne (Ne.symm hslash)]
  | case6 c before first ds hrest hend hslash name value next hread hlt ih =>
    have hnext : At source next := (h.skipBlank.scan_attribute).2 _ hread
    have hforward := h.forward hnext hlt
    have hset := setNew_push d ⟨tag, before, none⟩ name (String.ofList value)
    have hround : Site.attributeRound source start d.size
        (d.push (.element ⟨tag, before, none⟩), c.offset) =
          some (.inl (d.push (.element ⟨tag, before.addNew name (String.ofList value), none⟩),
            next.offset)) := by
      rw [attributeRound_eq d start h, hrest, hread]
      simp [startsWith, List.isPrefixOf, hset, hforward, beq_false_of_ne (Ne.symm hend),
        beq_false_of_ne (Ne.symm hslash)]
    rw [attributes_next d start h hnext hlt hround]
    exact ih hnext

end Attributes

/-! ## Constructs -/

/-- Where reading goes on. -/
def next? : Reading → Option Cursor
  | .token _ next => some next
  | .nothing next => some next
  | .failed _ _ => none

/-- What the stepwise parse does at a construct, by what the reader finds there. -/
def construed (d : Document κ) (b : Builder) : Reading → Except (Stop κ) (Site κ)
  | .token t next =>
    match b.step t with
    | .ok b' => .ok (site d b' next.offset)
    | .error e => .error (e, d.build ⟨b.nodes, none, some e⟩)
  | .nothing next => .ok (site d b next.offset)
  | .failed last f =>
    match b.run last.toList with
    | (b', some e) => .error (e, d.build ⟨b'.nodes, none, some e⟩)
    | (b', none) => .error (f.error, d.build ⟨b'.nodes, f.orphan, some f.error⟩)

/-- **The stepwise parse and the reader meet**: the parse is not refused, it does what the reader finds,
and the reader goes on at a place of the source. -/
def Meets (source : List Char) (d : Document κ) (b : Builder)
    (result : Option (Except (Stop κ) (Site κ))) (r : Reading) : Prop :=
  result = some (construed d b r) ∧ ∀ next, next? r = some next → At source next

section Constructs

variable {source : List Char} {c : Cursor} (d : Document κ) (b : Builder)

/-- The place behind characters of known length. -/
theorem drop_front (front : List Char) {tail : List Char} {n k : Nat} (hrest : c.rest = front ++ tail)
    (hn : front.length = n) (hk : bytes front = k) : c.drop n = ⟨c.offset + k, tail⟩ := by
  subst hn hk
  simp [Cursor.drop, hrest]

/-- A comment. -/
theorem comment_meets (h : At source c) {tail : List Char}
    (hrest : c.rest = ['<', '!', '-', '-'] ++ tail) :
    Meets source d b (Site.comment source d.size (site d b c.offset)) (readComment c) := by
  have hdrop : c.drop 4 = ⟨c.offset + 4, tail⟩ := drop_front _ hrest rfl rfl
  have hbody : At source ⟨c.offset + 4, tail⟩ := hdrop ▸ h.drop 4
  have hfrom : from? source (c.offset + 4) = some tail := hbody
  rcases hbody.scan_find (startsWith ['-', '-', '>']) with ⟨hfind, hcut⟩ |
      ⟨taken, next, hfind, hcut, hnext, hoffset, _, hstop, hslice⟩
  · simp only [Site.comment, readComment, site_pos, site_document, hfrom, hfind, hdrop, hcut,
      Option.bind_eq_bind, Option.bind_some]
    exact ⟨rfl, fun _ hnext => by cases hnext⟩
  · obtain ⟨behind, hbehind⟩ := Text.startsWith_eq_true_iff.mp hstop
    have hdrop' : next.drop 3 = ⟨next.offset + 3, behind⟩ := drop_front _ hbehind.symm rfl rfl
    have hplace : At source ⟨next.offset + 3, behind⟩ := hdrop' ▸ hnext.drop 3
    have hadd := add_site d b (.comment (String.ofList taken)) (by simp) c.offset
    simp only [Site.comment, readComment, site_pos, hfrom, hfind, hslice, hadd, hdrop, hcut, hdrop',
      hoffset, Option.bind_eq_bind, Option.bind_some] at hplace ⊢
    exact ⟨rfl, fun _ hnext => by cases hnext; exact hplace⟩

/-- The end of a tag is not among its first two characters. -/
theorem find?_tagEnd {first : Char} (hfirst : first = '/' ∨ first = '!') (tail : List Char) :
    find? (startsWith ['>']) ('<' :: first :: tail) =
      (find? (startsWith ['>']) tail).map (2 + ·) := by
  have hbytes : bytes ['<', first] = 2 := by
    rcases hfirst with rfl | rfl <;> decide
  have hcons : Text.cutAt? (startsWith ['>']) ('<' :: first :: tail) =
      (Text.cutAt? (startsWith ['>']) tail).map fun cut => ('<' :: first :: cut.1, cut.2) := by
    rcases hfirst with rfl | rfl <;> simp [Text.cutAt?, startsWith, List.isPrefixOf, Function.comp_def]
  unfold find?
  rw [hcons, Option.map_map, Option.map_map]
  congr 1
  funext cut
  have h := Text.bytes_append ['<', first] cut.1
  rw [hbytes] at h
  exact h

/-- A declaration. -/
theorem declaration_meets (h : At source c) {tail : List Char} (hrest : c.rest = ['<', '!'] ++ tail) :
    Meets source d b (Site.declaration source (site d b c.offset)) (readDeclaration c) := by
  have hdrop : c.drop 2 = ⟨c.offset + 2, tail⟩ := drop_front _ hrest rfl rfl
  have hbody : At source ⟨c.offset + 2, tail⟩ := hdrop ▸ h.drop 2
  have hfrom : from? source c.offset = some ('<' :: '!' :: tail) := Eq.trans h (congrArg some hrest)
  have hfind := find?_tagEnd (.inr rfl) tail
  rcases hbody.scan_find (startsWith ['>']) with ⟨hnone, hcut⟩ |
      ⟨taken, next, hsome, hcut, hnext, hoffset, _, hstop, _⟩
  · rw [hnone] at hfind
    simp only [Site.declaration, readDeclaration, site_pos, site_document, hfrom, hfind, hdrop, hcut,
      Option.bind_eq_bind, Option.bind_some, Option.map_none]
    exact ⟨rfl, fun _ hnext => by cases hnext⟩
  · obtain ⟨behind, hbehind⟩ := Text.startsWith_singleton_iff.mp hstop
    obtain ⟨hdrop', hplace⟩ := hnext.drop_one hbehind (by decide)
    rw [hsome] at hfind
    have hsum : c.offset + (2 + bytes taken) + 1 = c.offset + 2 + bytes taken + 1 := by omega
    simp only [Site.declaration, readDeclaration, site_pos, hfrom, hfind, hdrop, hcut, hdrop', hoffset,
      hsum, Option.bind_eq_bind, Option.bind_some, Option.map_some] at hplace ⊢
    exact ⟨rfl, fun _ hnext => by cases hnext; exact hplace⟩

/-- A closing tag. -/
theorem closing_meets (h : At source c) {tail : List Char} (hrest : c.rest = ['<', '/'] ++ tail) :
    Meets source d b (Site.closing source (site d b c.offset)) (readClosing c) := by
  have hdrop : c.drop 2 = ⟨c.offset + 2, tail⟩ := drop_front _ hrest rfl rfl
  have hbody : At source ⟨c.offset + 2, tail⟩ := hdrop ▸ h.drop 2
  have hfrom : from? source c.offset = some ('<' :: '/' :: tail) := Eq.trans h (congrArg some hrest)
  have hfind := find?_tagEnd (.inl rfl) tail
  rcases hbody.scan_find (startsWith ['>']) with ⟨hnone, hcut⟩ |
      ⟨taken, next, hsome, hcut, hnext, hoffset, _, hstop, hslice⟩
  · rw [hnone] at hfind
    simp only [Site.closing, readClosing, site_pos, site_document, hfrom, hfind, hdrop, hcut,
      Option.bind_eq_bind, Option.bind_some, Option.map_none]
    exact ⟨rfl, fun _ hnext => by cases hnext⟩
  · obtain ⟨behind, hbehind⟩ := Text.startsWith_singleton_iff.mp hstop
    obtain ⟨hdrop', hplace⟩ := hnext.drop_one hbehind (by decide)
    rw [hsome] at hfind
    have hsum : c.offset + (2 + bytes taken) = c.offset + 2 + bytes taken := by omega
    simp only [Site.closing, readClosing, site_pos, hfrom, hfind, hslice, hdrop, hcut, hdrop', hoffset,
      hsum, Option.bind_eq_bind, Option.bind_some, Option.map_some] at hplace ⊢
    refine ⟨?_, fun _ hnext => by cases hnext; exact hplace⟩
    obtain ⟨stack, inner⟩ := b
    by_cases hvoid : isVoid (String.ofList (lower (trim taken))) = true
    · simp only [construed, Builder.step, if_pos hvoid]
      rfl
    · simp only [construed, Builder.step, if_neg hvoid]
      cases stack with
      | nil => rfl
      | cons o stack =>
        simp only [site_stack, Document.handles]
        by_cases htag : o.element.tag = String.ofList (lower (trim taken))
        · simp only [if_pos htag]
          rfl
        · simp only [if_neg htag]
          rfl

/-- A text. -/
theorem text_meets (h : At source c) (hrest : c.rest ≠ []) :
    Meets source d b (Site.text source d.size (site d b c.offset)) (readText c) := by
  obtain ⟨first, tail, hfirst⟩ := List.exists_cons_of_ne_nil hrest
  have hdrop : c.drop 1 = ⟨c.offset + first.utf8Size, tail⟩ := drop_front [first] hfirst rfl (by simp)
  have hbehind : At source ⟨c.offset + first.utf8Size, tail⟩ := hdrop ▸ h.drop 1
  have hfrom : from? source c.offset = some (first :: tail) := Eq.trans h (congrArg some hfirst)
  have hend := hbehind.scan_textEnd
  have hnext := hbehind.cutAt startsMarkup
  have hsplit := Text.cutAt_append startsMarkup tail
  -- the slice of the text is its first character and what comes before the cut
  have hslice : slice? source c.offset (c.offset + first.utf8Size +
      bytes (Text.cutAt startsMarkup tail).1) = some (first :: (Text.cutAt startsMarkup tail).1) := by
    have hwhole : c.rest =
        [] ++ (first :: (Text.cutAt startsMarkup tail).1 ++ (Text.cutAt startsMarkup tail).2) := by
      rw [hfirst, List.nil_append, List.cons_append, hsplit]
    have hslice := h.slice hwhole
    rwa [Text.bytes_nil, Nat.add_zero, Text.bytes_cons, ← Nat.add_assoc] at hslice
  have hadd := add_site d b
    (.text (String.ofList (decode (first :: (Text.cutAt startsMarkup tail).1)))) (by simp) c.offset
  simp only [Site.text, readText, site_pos, hfrom, hdrop, hfirst, Cursor.cutAt, Option.bind_eq_bind,
    Option.bind_some, List.head?_cons, Option.map_some, Option.getD_some, List.take_succ_cons,
    List.take_zero] at hend hnext ⊢
  rw [hend, Option.bind_some, hslice, Option.bind_some, scan_decode, Option.bind_some, hadd]
  exact ⟨rfl, fun _ hgoes => by cases hgoes; exact hnext⟩

/-- Of the raw elements only one holds references. -/
theorem isVerbatim_iff {tag : String} (h : isRaw tag = true) :
    isVerbatim tag = true ↔ tag ≠ "textarea" := by
  simp only [isRaw, rawTags, List.contains_iff_mem, List.mem_cons, List.not_mem_nil, or_false] at h
  rcases h with rfl | rfl | rfl <;> decide

/-- **The raw content goes into the element that was appended last.** -/
theorem rawText_eq {tag : String} (htag : isRaw tag = true) (attributes : Attributes)
    (content : List Char) :
    Site.rawText (d.graft (b.push ⟨tag, attributes, none⟩).nodes) (d.graft b.nodes).size tag content =
      some (d.graft (b.add (.node (.element ⟨tag, attributes, none⟩)
        (Builder.contentOf (if isVerbatim tag then content else decode content)) .nil)).nodes) := by
  have hopen : (d.graft b.nodes).size = d.openHandle (b.push ⟨tag, attributes, none⟩).stack :=
    size_graft d b.nodes
  have hadded : ∀ data : List Char,
      Site.attach ((d.graft (b.push ⟨tag, attributes, none⟩).nodes).push (.text (String.ofList data)))
          (d.graft b.nodes).size (d.graft (b.push ⟨tag, attributes, none⟩).nodes).size =
        some (d.graft (b.add (.node (.element ⟨tag, attributes, none⟩)
          (.single (.text (String.ofList data))) .nil)).nodes) := by
    intro data
    have happend := append_graft_push d (b.push ⟨tag, attributes, none⟩) (.text (String.ofList data))
      (by simp)
    unfold Site.attach
    rw [hopen, happend]
    rfl
  unfold Site.rawText
  by_cases hempty : content = []
  · subst hempty
    rw [decode_nil]
    simp only [List.isEmpty_nil, if_true, ite_self, Builder.contentOf]
    rfl
  · have hdecode := decode_ne_nil hempty
    rw [if_neg (by simpa using hempty), scan_decode]
    by_cases htextarea : tag = "textarea"
    · have hverbatim : ¬ isVerbatim tag = true := fun h => (isVerbatim_iff htag).mp h htextarea
      rw [if_pos htextarea, if_neg hverbatim, Option.bind_some, hadded, Builder.contentOf,
        if_neg (by simpa using hdecode)]
    · have hverbatim : isVerbatim tag = true := (isVerbatim_iff htag).mpr htextarea
      rw [if_neg htextarea, if_pos hverbatim, Option.bind_some, hadded, Builder.contentOf,
        if_neg (by simpa using hempty)]

/-- The content of a raw element. -/
theorem raw_meets (h : At source c) {tag : String} (htag : isRaw tag = true)
    (attributes : Attributes) (start : Nat) :
    Meets source d b (Site.raw source (d.graft b.nodes).size tag start
        ⟨d.graft (b.push ⟨tag, attributes, none⟩).nodes, c.offset, d.handles b.stack⟩)
      (readRaw tag attributes start c) := by
  have hfrom : from? source c.offset = some c.rest := h
  have hsearch : find? (startsWith ('<' :: '/' :: tag.toList)) (lower c.rest) =
      find? (closesRaw tag) c.rest := by
    rw [Text.find?_lower]
    congr 1
    funext cs
    rw [Bool.eq_iff_iff, Text.startsWith_eq_true_iff, closesRaw_iff]
  rcases h.scan_find (closesRaw tag) with ⟨hfind, hcut⟩ |
      ⟨content, close, hfind, hcut, hclose, hoffset, _, _, hslice⟩
  · simp only [Site.raw, readRaw, hfrom, hsearch, hfind, hcut, Option.bind_eq_bind, Option.bind_some]
    exact ⟨rfl, fun _ hnext => by cases hnext⟩
  · have hplace : from? source (c.offset + bytes content) = some close.rest := hoffset ▸ hclose
    have htext := rawText_eq d b htag attributes content
    rcases hclose.scan_find (startsWith ['>']) with ⟨hfind', hcut'⟩ |
        ⟨taken, next, hfind', hcut', hnext, hoffset', _, hstop, _⟩
    · simp only [Site.raw, readRaw, hfrom, hsearch, hfind, hcut, hslice, htext, hplace, hfind', hcut',
        Option.bind_eq_bind, Option.bind_some]
      refine ⟨?_, fun _ hnext => by cases hnext⟩
      rw [hoffset]
      rfl
    · obtain ⟨behind, hbehind⟩ := Text.startsWith_singleton_iff.mp hstop
      obtain ⟨hdrop, hafter⟩ := hnext.drop_one hbehind (by decide)
      simp only [Site.raw, readRaw, hfrom, hsearch, hfind, hcut, hslice, htext, hplace, hfind', hcut',
        hdrop, hoffset', hoffset, Option.bind_eq_bind, Option.bind_some] at hafter ⊢
      exact ⟨rfl, fun _ hgoes => by cases hgoes; exact hafter⟩

/-- The element of an opening tag, before its attributes are read. -/
theorem ofTag_lower (name : List Char) :
    Element.ofTag (String.ofList (lower name)) = ⟨String.ofList (lower name), [], none⟩ := by
  unfold Element.ofTag Text.lowercase
  rw [String.toList_ofList, Text.lower_lower]

/-- An opening tag. -/
theorem opening_meets (h : At source c) {tail : List Char} (hrest : c.rest = '<' :: tail) :
    Meets source d b (Site.opening source d.size (site d b c.offset)) (readOpening c) := by
  obtain ⟨hdrop, hbehind⟩ := h.drop_one hrest (by decide)
  have hname := hbehind.takeWhile isTagNameChar
  have hscan := hbehind.scan_takeWhile isTagNameChar
  rw [readOpening, hdrop]
  generalize (Cursor.mk (c.offset + 1) tail).takeWhile isTagNameChar = named at hname hscan
  obtain ⟨name, next⟩ := named
  obtain ⟨hloop, hend⟩ :=
    attributes_eq (d.graft b.nodes) (String.ofList (lower name)) c.offset [] hname
  have hattach : ∀ attributes, Site.attach ((d.graft b.nodes).push
      (.element ⟨String.ofList (lower name), attributes, none⟩)) (d.openHandle b.stack)
        (d.graft b.nodes).size =
      some (d.graft (b.push ⟨String.ofList (lower name), attributes, none⟩).nodes) := by
    intro attributes
    unfold Site.attach
    rw [append_graft_push d b _ (by simp)]
    rfl
  simp only [Site.opening, site_pos, site_document, hscan, ofTag_lower, hloop, current_site,
    Option.bind_eq_bind, Option.bind_some]
  generalize hread : readAttributes c.offset next [] = result at hend
  obtain ⟨attributes, result⟩ := result
  cases result with
  | error e => exact ⟨rfl, fun _ hgoes => by cases hgoes⟩
  | ok result =>
    obtain ⟨closed, last⟩ := result
    have hlast : At source last := hend _ _ _ rfl
    simp only [tagEnd, hattach, Option.bind_some]
    split
    · exact ⟨rfl, fun _ hgoes => by cases hgoes; exact hlast⟩
    split
    · rename_i hraw
      exact raw_meets d b hlast hraw attributes c.offset
    · have hsize : (d.graft b.nodes).size = d.openHandle
          (b.push ⟨String.ofList (lower name), attributes, none⟩).stack := size_graft d b.nodes
      rw [hsize]
      exact ⟨rfl, fun _ hgoes => by cases hgoes; exact hlast⟩

/-- Markup begins with `<` and one more character. -/
theorem exists_of_startsMarkup {cs : List Char} (h : startsMarkup cs = true) :
    ∃ first tail, cs = '<' :: first :: tail := by
  unfold startsMarkup at h
  split at h
  · exact ⟨_, _, rfl⟩
  · cases h

/-- Which construct begins at a place. -/
theorem read_eq (c : Cursor) :
    Markup.read c =
      if startsWith ['<', '!', '-', '-'] c.rest then readComment c
      else if startsWith ['<', '/'] c.rest then readClosing c
      else if startsWith ['<', '!'] c.rest then readDeclaration c
      else if startsMarkup c.rest then readOpening c
      else readText c := by
  unfold Markup.read
  split
  · rename_i heq
    simp [heq, startsWith, List.isPrefixOf]
  · rename_i heq
    simp [heq, startsWith, List.isPrefixOf]
  · rename_i tail hcomment heq
    have hnot : startsWith ['<', '!', '-', '-'] c.rest = false := by
      rw [Bool.eq_false_iff, Ne, Text.startsWith_eq_true_iff, heq]
      rintro ⟨behind, hbehind⟩
      exact hcomment behind (by simpa using hbehind.symm)
    rw [hnot]
    simp [heq, startsWith, List.isPrefixOf]
  · rename_i first tail hcomment hclosing hdeclaration heq
    have hslash : ('/' == first) = false := beq_false_of_ne fun he => hclosing he.symm
    have hbang : ('!' == first) = false := beq_false_of_ne fun he => hdeclaration he.symm
    simp [heq, startsWith, List.isPrefixOf, startsMarkup, hslash, hbang, beq_false_of_ne hclosing,
      beq_false_of_ne hdeclaration]
  · rename_i hcomment hclosing hdeclaration hopening
    have never : ∀ first front, startsWith ('<' :: first :: front) c.rest = false := by
      intro first front
      rw [Bool.eq_false_iff, Ne, Text.startsWith_eq_true_iff]
      rintro ⟨behind, hbehind⟩
      exact hopening _ _ hbehind.symm
    have hmarkup : startsMarkup c.rest = false := by
      rw [Bool.eq_false_iff]
      intro hstarts
      obtain ⟨first, tail, heq⟩ := exists_of_startsMarkup hstarts
      exact hopening _ _ heq
    simp [never, hmarkup]

/-- **One construct**: what begins at a place that is not the end. -/
theorem construct_meets (h : At source c) (hrest : c.rest ≠ []) :
    Meets source d b (Site.construct source d.size (site d b c.offset)) (Markup.read c) := by
  have hfrom : from? source c.offset = some c.rest := h
  simp only [Site.construct, site_pos, hfrom, scan_startsMarkup, Option.bind_eq_bind,
    Option.bind_some]
  rw [read_eq]
  split
  · rename_i hstarts
    obtain ⟨tail, htail⟩ := Text.startsWith_eq_true_iff.mp hstarts
    exact comment_meets d b h htail.symm
  split
  · rename_i hstarts
    obtain ⟨tail, htail⟩ := Text.startsWith_eq_true_iff.mp hstarts
    exact closing_meets d b h htail.symm
  split
  · rename_i hstarts
    obtain ⟨tail, htail⟩ := Text.startsWith_eq_true_iff.mp hstarts
    exact declaration_meets d b h htail.symm
  split
  · rename_i hstarts
    obtain ⟨first, tail, htail⟩ := exists_of_startsMarkup hstarts
    exact opening_meets d b h htail
  · exact text_meets d b h hrest

end Constructs

/-! ## The main loop -/

/-- What a parse makes of the tokens that are left, from a builder on. -/
def parsedFrom (b : Builder) (lexed : Lexed) : Parsed :=
  match b.run lexed.tokens with
  | (b, some e) => ⟨b.nodes, none, some e⟩
  | (b, none) =>
    match lexed.failure with
    | some f => ⟨b.nodes, f.orphan, some f.error⟩
    | none => ⟨b.nodes, none, none⟩

/-- How a parse ends, and with which document. -/
def parseEnd (d : Document κ) (parsed : Parsed) : Except (Stop κ) (Document κ) :=
  match parsed.error with
  | some e => .error (e, d.build parsed)
  | none => .ok (d.build parsed)

section Run

variable {source : List Char} {c : Cursor} (d : Document κ) (b : Builder)

/-- Where a construct takes the stepwise parse. -/
theorem exists_next {r : Reading} {s : Site κ} (h : construed d b r = .ok s) :
    ∃ next, next? r = some next ∧ s.pos = next.offset := by
  cases r with
  | token t next =>
    refine ⟨next, rfl, ?_⟩
    simp only [construed] at h
    cases hstep : b.step t with
    | error e =>
      rw [hstep] at h
      cases h
    | ok b' =>
      rw [hstep] at h
      cases h
      rfl
  | nothing next =>
    cases h
    exact ⟨next, rfl, rfl⟩
  | failed last f =>
    simp only [construed] at h
    split at h <;> cases h

/-- Every construct takes the reader forward. -/
theorem next_lt {next : Cursor} (hrest : c.rest ≠ []) (h : next? (Markup.read c) = some next) :
    next.rest.length < c.rest.length := by
  cases hread : Markup.read c with
  | token t next' =>
    rw [hread] at h
    cases h
    exact read_token_lt hrest hread
  | nothing next' =>
    rw [hread] at h
    cases h
    exact read_nothing_lt hrest hread
  | failed last f =>
    rw [hread] at h
    cases h

theorem offset_lt (h : At source c) (hrest : c.rest ≠ []) : c.offset < bytes source := by
  obtain ⟨first, tail, hfirst⟩ := List.exists_cons_of_ne_nil hrest
  have hpos := first.utf8Size_pos
  have hleft := h.bytes_rest
  rw [hfirst, Text.bytes_cons] at hleft
  omega

/-- **A round of the main loop** at a place that is not the end. -/
theorem round_eq (h : At source c) (hrest : c.rest ≠ []) :
    Site.round source d.size (site d b c.offset) =
      some (match construed d b (Markup.read c) with
        | .error stop => .inr (.error stop)
        | .ok s => .inl s) := by
  obtain ⟨hconstruct, hgoes⟩ := construct_meets d b h hrest
  unfold Site.round
  rw [if_pos (show (site d b c.offset).pos < bytes source from offset_lt h hrest), hconstruct]
  cases hconstrued : construed d b (Markup.read c) with
  | error stop => rfl
  | ok s =>
    obtain ⟨next, hnext, hpos⟩ := exists_next d b hconstrued
    have hforward := h.forward (hgoes next hnext) (next_lt hrest hnext)
    rw [← hpos] at hforward
    simp only [site_pos, hforward, Option.bind_eq_bind, Option.bind_some]
    rfl

/-- A round that goes on leaves less to read. -/
theorem run_next {b' : Builder} {next : Cursor} (h : At source c) (hrest : c.rest ≠ [])
    (hnext : next? (Markup.read c) = some next)
    (hconstrued : construed d b (Markup.read c) = .ok (site d b' next.offset)) :
    At source next ∧ Site.run source d.size (site d b c.offset) =
      Site.run source d.size (site d b' next.offset) := by
  have hgoes := (construct_meets d b h hrest).2 next hnext
  have hround := round_eq d b h hrest
  rw [hconstrued] at hround
  refine ⟨hgoes, Scan.repeating_next hround ?_⟩
  have hforward := Text.lt_of_length_lt h hgoes (next_lt hrest hnext)
  have hle := hgoes.offset_le
  simp only [site_pos]
  omega

/-- **The main loop reads the source to its end** or to the first error, and each of its rounds goes
forward. -/
theorem run_eq (h : At source c) :
    Site.run source d.size (site d b c.offset) = some (parseEnd d (parsedFrom b (lex c))) := by
  fun_induction lex c generalizing b with
  | case1 c hrest =>
    apply Scan.repeating_last
    have hend : ¬ c.offset < bytes source := by
      have hleft := h.bytes_rest
      rw [hrest, Text.bytes_nil] at hleft
      omega
    unfold Site.round
    rw [if_neg (show ¬ (site d b c.offset).pos < bytes source from hend)]
    rfl
  | case2 c hrest t next hread hlt ih =>
    cases hstep : b.step t with
    | error e =>
      have hround := round_eq d b h hrest
      simp only [hread, construed, hstep] at hround
      rw [Site.run, Scan.repeating_last hround]
      simp [parsedFrom, parseEnd, Lexed.cons, Builder.run, hstep]
    | ok b' =>
      have hconstrued : construed d b (Markup.read c) = .ok (site d b' next.offset) := by
        simp only [hread, construed, hstep]
      obtain ⟨hgoes, hrun⟩ := run_next d b h hrest (congrArg next? hread) hconstrued
      rw [hrun, ih b' hgoes]
      simp [parsedFrom, Lexed.cons, Builder.run, hstep]
  | case3 c hrest next hread hlt ih =>
    have hconstrued : construed d b (Markup.read c) = .ok (site d b next.offset) := by
      simp only [hread, construed]
    obtain ⟨hgoes, hrun⟩ := run_next d b h hrest (congrArg next? hread) hconstrued
    rw [hrun, ih b hgoes]
  | case4 c hrest last f hread =>
    have hround := round_eq d b h hrest
    simp only [hread, construed] at hround
    rw [Site.run]
    unfold parsedFrom parseEnd
    dsimp only
    generalize b.run last.toList = made at hround ⊢
    obtain ⟨b', stopped⟩ := made
    cases stopped <;> exact Scan.repeating_last hround

end Run

/-- **The stepwise parse is never refused** and does what parsing to a forest and grafting it does. -/
theorem Document.stepwise_eq (d : Document κ) (source : String) :
    d.stepwise source = some (d.parseFragment source) := by
  have hstart : (⟨d.push .fragment, 0, []⟩ : Site κ) = site d .empty (Cursor.start source.toList).offset := by
    have hgraft : d.push .fragment = d.graft .nil := ((d.push .fragment).plant_nil d.size).symm
    rw [hgraft]
    rfl
  unfold Document.stepwise Document.parseFragment
  rw [hstart, run_eq d .empty (At.start source.toList)]
  show some _ = some _
  congr 1
  show _ = ((match (parsedFrom .empty (lex (.start source.toList))).error with
    | some e => Except.error e
    | none => Except.ok d.size), d.build (parsedFrom .empty (lex (.start source.toList))))
  unfold parseEnd
  cases (parsedFrom .empty (lex (.start source.toList))).error <;> rfl

end BoundView.Dom
