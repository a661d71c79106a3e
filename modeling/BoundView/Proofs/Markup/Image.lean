import BoundView.Proofs.Markup.Joining
import BoundView.Proofs.Markup.Sound

/-!
# What a parse builds can be written

Whatever the source, the nodes that a parse has built can be written as markup: names come out in
lower case and free of the signs around them, a comment ends at its first `-->`, a raw element at the
first closing tag of its own, and a void element never opens. Only texts that stand side by side are
left over from sources in which something between them meant nothing.

Main statements: `legible_parse`, and `parse_render_parse`, what is written of a parse parses again. Like
soundness it follows the reading of one tag (`isAttributeName_readAttributes`), the list of tokens
(`legible_lex`) and the tree under construction (`Builder.Legible.run`).
-/

namespace BoundView.Text

/-- **A character in lower case**: a letter of upper case becomes one of lower case, and every other
character stays. -/
theorem toLower_cases (c : Char) :
    (97 ≤ c.toLower.val.toNat ∧ c.toLower.val.toNat ≤ 122) ∨ (c.isUpper = false ∧ c.toLower = c) := by
  unfold Char.toLower
  split
  · rename_i hupper
    have h1 : 65 ≤ c.val.toNat := UInt32.le_iff_toNat_le.mp hupper.1
    have h2 : c.val.toNat ≤ 90 := UInt32.le_iff_toNat_le.mp hupper.2
    refine .inl ?_
    dsimp only
    rw [UInt32.toNat_add]
    show 97 ≤ (c.val.toNat + 32) % 4294967296 ∧ (c.val.toNat + 32) % 4294967296 ≤ 122
    omega
  · rename_i hupper
    exact .inr ⟨decide_eq_false hupper, rfl⟩

/-- Lower case is reached at once. -/
theorem lower_lower (cs : List Char) : lower (lower cs) = lower cs := by
  have hchar : ∀ c : Char, c.toLower.toLower = c.toLower := by
    intro c
    rcases toLower_cases c with ⟨hlower, _⟩ | ⟨_, hsame⟩
    · have hupper : ¬ (c.toLower.val ≥ 'A'.val ∧ c.toLower.val ≤ 'Z'.val) := by
        rintro ⟨_, hle⟩
        have hle' : c.toLower.val.toNat ≤ 90 := UInt32.le_iff_toNat_le.mp hle
        omega
      generalize c.toLower = e at hupper
      unfold Char.toLower
      exact dif_neg hupper
    · rw [hsame, hsame]
  unfold lower
  rw [List.map_map]
  exact List.map_congr_left fun c _ => hchar c

theorem isLower_iff {c : Char} : c.isLower = true ↔ 97 ≤ c.val.toNat ∧ c.val.toNat ≤ 122 := by
  unfold Char.isLower
  simp only [ge_iff_le, UInt32.le_iff_toNat_le, Bool.and_eq_true, decide_eq_true_eq]
  rfl

end BoundView.Text

namespace BoundView.Markup

open BoundView.Dom (Attribute Attributes Content Element)

/-! ## Names in lower case -/

/-- A letter of lower case may stand in the name of an attribute. -/
theorem isAttributeNameChar_of_isLower {c : Char} (h : c.isLower = true) :
    isAttributeNameChar c = true := by
  obtain ⟨h1, h2⟩ := Text.isLower_iff.mp h
  have hblank : Text.isBlank c = false := by
    unfold Text.isBlank
    have hn : c.toNat = c.val.toNat := rfl
    simp only [hn, Bool.or_eq_false_iff, Bool.and_eq_false_iff, decide_eq_false_iff_not,
      beq_eq_false_iff_ne, ne_eq]
    omega
  have hne : ∀ d : Char, d.val.toNat < 97 → c ≠ d := by
    rintro d hd rfl
    omega
  unfold isAttributeNameChar
  rw [hblank, bne_iff_ne.mpr (hne '=' (by decide)), bne_iff_ne.mpr (hne '>' (by decide)),
    bne_iff_ne.mpr (hne '/' (by decide))]
  rfl

theorem isTagLetter_of_isLower {c : Char} (h : c.isLower = true) : isTagLetter c = true :=
  isTagLetter_iff.mpr (.inl h)

/-- A character of a tag is a letter of a tag in lower case. -/
theorem isTagLetter_toLower {c : Char} (h : isTagNameChar c = true) :
    isTagLetter c.toLower = true := by
  rcases Text.toLower_cases c with hlower | ⟨hupper, hsame⟩
  · exact isTagLetter_of_isLower (Text.isLower_iff.mpr hlower)
  · have hclass : (c.isUpper || c.isLower || c.isDigit || c == '-' || c == ':') = true := h
    simp only [hupper, Bool.false_or, Bool.or_eq_true, beq_iff_eq] at hclass
    rw [hsame, isTagLetter_iff]
    rcases hclass with ((h | h) | h) | h
    · exact .inl h
    · exact .inr (.inl h)
    · exact .inr (.inr (.inr h))
    · exact .inr (.inr (.inl h))

/-- A letter becomes one of lower case. -/
theorem isLower_toLower {c : Char} (h : c.isAlpha = true) : c.toLower.isLower = true := by
  rcases Text.toLower_cases c with hlower | ⟨hupper, hsame⟩
  · exact Text.isLower_iff.mpr hlower
  · have hclass : (c.isUpper || c.isLower) = true := h
    rw [hupper, Bool.false_or] at hclass
    rwa [hsame]

/-- **The name of an opening tag is a tag in lower case.** -/
theorem isTag_lower {c : Char} {cs : List Char} (hc : c.isAlpha = true)
    (hcs : ∀ d ∈ cs, isTagNameChar d = true) :
    IsTag (String.ofList (Text.lower (c :: cs))) := by
  have hlist : (String.ofList (Text.lower (c :: cs))).toList = c.toLower :: Text.lower cs :=
    String.toList_ofList
  refine ⟨?_, ?_⟩
  · rw [hlist]
    exact isLower_toLower hc
  · rw [hlist, List.all_cons, Bool.and_eq_true]
    refine ⟨isTagLetter_of_isLower (isLower_toLower hc), List.all_eq_true.mpr fun d hd => ?_⟩
    obtain ⟨e, he, rfl⟩ := List.mem_map.mp hd
    exact isTagLetter_toLower (hcs e he)

theorem isAttributeNameChar_toLower {c : Char} (h : isAttributeNameChar c = true) :
    isAttributeNameChar c.toLower = true ∧ c.toLower.isUpper = false := by
  rcases Text.toLower_cases c with hlower | ⟨hupper, hsame⟩
  · refine ⟨isAttributeNameChar_of_isLower (Text.isLower_iff.mpr hlower), ?_⟩
    unfold Char.isUpper
    rw [decide_eq_false_iff_not]
    rintro ⟨-, hle⟩
    have h2 : c.toLower.val.toNat ≤ 90 := UInt32.le_iff_toNat_le.mp hle
    omega
  · rw [hsame]
    exact ⟨h, hupper⟩

/-- **The name of an attribute** in lower case, unless it is empty. -/
theorem isAttributeName_lower {cs : List Char} (hcs : ∀ d ∈ cs, isAttributeNameChar d = true)
    (hne : (String.ofList (Text.lower cs)).isEmpty = false) :
    IsAttributeName (String.ofList (Text.lower cs)) := by
  have hlist : (String.ofList (Text.lower cs)).toList = Text.lower cs := String.toList_ofList
  refine ⟨?_, ?_, ?_⟩
  · intro hnil
    rw [String.toList_eq_nil_iff.mp hnil] at hne
    cases hne
  · rw [hlist]
    refine List.all_eq_true.mpr fun d hd => ?_
    obtain ⟨e, he, rfl⟩ := List.mem_map.mp hd
    exact (isAttributeNameChar_toLower (hcs e he)).1
  · rw [hlist]
    refine List.any_eq_false.mpr fun d hd => ?_
    obtain ⟨e, he, rfl⟩ := List.mem_map.mp hd
    rw [(isAttributeNameChar_toLower (hcs e he)).2]
    exact Bool.false_ne_true

/-! ## Tags -/

/-- The name that reading an attribute gives is made of the characters of a name, in lower case. -/
theorem readAttribute_name {c next : Cursor} {name : String} {value : List Char}
    (h : readAttribute c = .ok (name, value, next)) :
    ∃ cs : List Char, name = String.ofList (Text.lower cs) ∧
      ∀ d ∈ cs, isAttributeNameChar d = true := by
  refine ⟨c.rest.takeWhile isAttributeNameChar, ?_, fun d hd =>
    List.all_eq_true.mp List.all_takeWhile d hd⟩
  unfold readAttribute at h
  dsimp only [Cursor.takeWhile] at h
  split at h
  · unfold Except.map at h
    split at h
    · cases h
    · cases h
      rfl
  · cases h
    rfl

/-- One more attribute keeps the names such that markup can write them: an empty name is not added. -/
theorem isAttributeName_addNew {attributes : Attributes}
    (h : ∀ a ∈ attributes, IsAttributeName a.name) {name : String}
    (hname : name.isEmpty = false → IsAttributeName name) (value : String) :
    ∀ a ∈ attributes.addNew name value, IsAttributeName a.name := by
  unfold Attributes.addNew
  split
  · exact h
  · rename_i hnew
    rw [Bool.or_eq_true, not_or, Bool.not_eq_true] at hnew
    intro a ha
    rcases List.mem_append.mp ha with ha | ha
    · exact h a ha
    · rw [List.mem_singleton.mp ha]
      exact hname hnew.1

/-- The attributes of a tag have names that markup can write. -/
theorem isAttributeName_readAttributes {start : Nat} {c : Cursor} {before : Attributes}
    (h : ∀ a ∈ before, IsAttributeName a.name) :
    ∀ a ∈ (readAttributes start c before).1, IsAttributeName a.name := by
  fun_induction readAttributes start c before with
  | case1 => exact h
  | case2 => exact h
  | case3 => exact h
  | case4 _ _ _ _ _ _ _ ih => exact ih h
  | case5 => exact h
  | case6 _ _ _ _ _ _ _ name value _ hread _ ih =>
    obtain ⟨cs, rfl, hcs⟩ := readAttribute_name hread
    exact ih (isAttributeName_addNew h (isAttributeName_lower hcs) _)

/-- **A tag with attributes that markup can write.** -/
structure IsOpening (tag : String) (attributes : Attributes) : Prop where
  tag : IsTag tag
  names : ∀ a ∈ attributes, IsAttributeName a.name
  distinct : attributes.names.Nodup

/-- The element of such a tag can hold whatever its kind allows. -/
theorem IsOpening.isElement {tag : String} {attributes : Attributes} (h : IsOpening tag attributes)
    {children : Nodes} (hvoid : isVoid tag = true → children = .nil)
    (hraw : isRaw tag = true → RawContent tag children) :
    IsElement ⟨tag, attributes, none⟩ children :=
  ⟨h.tag, h.names, h.distinct, hvoid, hraw⟩

theorem IsOpening.isElement_nil {tag : String} {attributes : Attributes}
    (h : IsOpening tag attributes) : IsElement ⟨tag, attributes, none⟩ .nil :=
  h.isElement (fun _ => rfl) fun _ => trivial

/-! ## Tokens -/

/-- **A token whose node markup can write.** -/
def Token.Legible : Token → Prop
  | .text raw => raw ≠ []
  | .comment body => ¬ ['-', '-', '>'] <:+: body
  | .opening tag attributes => IsOpening tag attributes ∧ isVoid tag = false ∧ isRaw tag = false
  | .leaf tag attributes content =>
    IsElement ⟨tag, attributes, none⟩ (Builder.contentOf content)
  | .closing _ _ => True

/-- What one reading step gives is legible: its token, and the one that was complete before a
failure. -/
def Reading.Legible : Reading → Prop
  | .token t _ => t.Legible
  | .nothing _ => True
  | .failed last _ => ∀ t ∈ last, t.Legible

theorem legible_failed (f : Failure) : (Reading.failed none f).Legible :=
  fun _ ht => absurd ht (Option.not_mem_none _)

theorem legible_readText {c : Cursor} (hc : c.rest ≠ []) : (readText c).Legible := by
  obtain ⟨d, ds, hrest⟩ := List.exists_cons_of_ne_nil hc
  show c.rest.take 1 ++ _ ≠ []
  rw [hrest]
  exact List.cons_ne_nil _ _

theorem legible_readComment (c : Cursor) : (readComment c).Legible := by
  unfold readComment
  split
  · rename_i body next hfound
    obtain ⟨⟨before, after⟩, hcut, heq⟩ := Option.map_eq_some_iff.mp hfound
    cases heq
    have hends := Text.not_infix_of_cutAt? (f := id) hcut (List.cons_ne_nil '-' ['-', '>'])
      fun ys hys => by
        rw [List.map_id] at hys
        exact Text.startsWith_eq_true_iff.mpr hys
    rwa [List.map_id] at hends
  · exact legible_failed _

/-- What a raw element holds is its content as it was read, or decoded. -/
theorem rawContent_contentOf {tag : String} {content : List Char}
    (h : isVerbatim tag = true → ¬ '<' :: '/' :: tag.toList <:+: Text.lower content) :
    RawContent tag (Builder.contentOf content) := by
  unfold Builder.contentOf
  split
  · trivial
  · intro hverbatim
    rw [String.toList_ofList]
    exact h hverbatim

theorem legible_readRaw {tag : String} {attributes : Attributes} (h : IsOpening tag attributes)
    (hvoid : isVoid tag = false) (start : Nat) (c : Cursor) :
    (readRaw tag attributes start c).Legible := by
  unfold readRaw
  split
  · intro t ht
    rw [← Option.mem_some_iff.mp ht]
    exact h.isElement_nil
  · rename_i raw close hfound
    obtain ⟨⟨before, after⟩, hcut, heq⟩ := Option.map_eq_some_iff.mp hfound
    cases heq
    have hends := Text.not_infix_of_cutAt? (f := Char.toLower) hcut
      (List.cons_ne_nil '<' ('/' :: tag.toList)) fun ys hys => closesRaw_iff.mpr hys
    have hleaf : (Token.leaf tag attributes
        (if isVerbatim tag then raw else decode raw)).Legible := by
      refine h.isElement (fun hv => absurd (hvoid.symm.trans hv) Bool.false_ne_true) fun _ =>
        rawContent_contentOf fun hverbatim => ?_
      rw [if_pos hverbatim]
      exact hends
    dsimp only
    split
    · exact hleaf
    · intro t ht
      rw [← Option.mem_some_iff.mp ht]
      exact hleaf

theorem legible_readOpening {c : Cursor} {d : Char} {ds : List Char} (hrest : c.rest = '<' :: d :: ds)
    (hd : d.isAlpha = true) : (readOpening c).Legible := by
  have hdrop : (c.drop 1).rest = d :: ds := by
    unfold Cursor.drop
    dsimp only
    rw [hrest]
    rfl
  have hkeep : isTagNameChar d = true := by
    show (d.isAlpha || d.isDigit || d == '-' || d == ':') = true
    rw [hd]
    rfl
  have htag : IsTag (String.ofList (Text.lower ((c.drop 1).takeWhile isTagNameChar).1)) := by
    have hname : ((c.drop 1).takeWhile isTagNameChar).1 = d :: ds.takeWhile isTagNameChar := by
      unfold Cursor.takeWhile
      rw [hdrop]
      exact List.takeWhile_cons_of_pos hkeep
    rw [hname]
    exact isTag_lower hd fun e he => List.all_eq_true.mp List.all_takeWhile e he
  have hnames : ∀ a ∈ (readAttributes c.offset ((c.drop 1).takeWhile isTagNameChar).2 []).1,
      IsAttributeName a.name :=
    isAttributeName_readAttributes fun a ha => absurd ha List.not_mem_nil
  have hdistinct :
      (readAttributes c.offset ((c.drop 1).takeWhile isTagNameChar).2 []).1.names.Nodup :=
    names_readAttributes List.nodup_nil
  unfold readOpening
  dsimp only
  split
  · exact legible_failed _
  · rename_i attributes closed next heq
    rw [heq] at hnames hdistinct
    have hopening : IsOpening _ attributes := ⟨htag, hnames, hdistinct⟩
    split
    · exact hopening.isElement_nil
    · rename_i hopen
      rw [Bool.or_eq_true, not_or, Bool.not_eq_true, Bool.not_eq_true] at hopen
      split
      · exact legible_readRaw hopening hopen.2 _ _
      · rename_i hraw
        exact ⟨hopening, hopen.2, Bool.not_eq_true _ ▸ hraw⟩

/-- **One reading step** gives something legible. -/
theorem legible_read {c : Cursor} (hc : c.rest ≠ []) : (read c).Legible := by
  unfold read
  split
  · exact legible_readComment c
  · unfold readClosing
    split
    · trivial
    · exact legible_failed _
  · unfold readDeclaration
    split
    · trivial
    · exact legible_failed _
  · rename_i d ds _ _ hrest
    split
    · rename_i hd
      exact legible_readOpening hrest hd
    · exact legible_readText hc
  · exact legible_readText hc

/-- The tokens of a source are legible. -/
theorem legible_lex (c : Cursor) : ∀ t ∈ (lex c).tokens, t.Legible := by
  intro t ht
  obtain ⟨c', hc, ⟨next, heq⟩ | ⟨f, heq⟩⟩ := exists_read_of_mem_tokens ht
  · have hread := legible_read hc
    rw [heq] at hread
    exact hread
  · have hread := legible_read hc
    rw [heq] at hread
    exact hread t rfl

/-! ## The tree under construction -/

/-- **What a parse builds**: nodes that markup can write, no text of which is empty, and which hold
no live value. -/
structure Legible (f : Nodes) : Prop where
  writable : Writable f
  filled : Filled f
  fresh : f.map written = f

theorem Legible.append {f g : Nodes} (hf : Legible f) (hg : Legible g) : Legible (f ++ g) where
  writable := writable_append hf.writable hg.writable
  filled := filled_append hf.filled hg.filled
  fresh := by rw [Forest.map_append, hf.fresh, hg.fresh]

theorem legible_nil : Legible .nil := ⟨trivial, List.not_mem_nil, rfl⟩

theorem legible_element {tag : String} {attributes : Attributes} {children : Nodes}
    (h : IsElement ⟨tag, attributes, none⟩ children) (hchildren : Legible children) :
    Legible (.node (.element ⟨tag, attributes, none⟩) children .nil) where
  writable := ⟨h, hchildren.writable, trivial⟩
  filled := filled_node.mpr ⟨Content.noConfusion, hchildren.filled, List.not_mem_nil⟩
  fresh := by
    show Forest.node _ (children.map written) .nil = _
    rw [hchildren.fresh]
    rfl

theorem legible_text {data : List Char} (hdata : data ≠ []) :
    Legible (.single (.text (String.ofList data))) where
  writable := ⟨rfl, trivial⟩
  filled := by
    refine filled_node.mpr ⟨fun h => hdata ?_, List.not_mem_nil, List.not_mem_nil⟩
    rw [← String.toList_ofList (l := data), Content.text.inj h]
    rfl
  fresh := rfl

/-- Decoding leaves nothing empty. -/
theorem decode_ne_nil {cs : List Char} (h : cs ≠ []) : decode cs ≠ [] := by
  obtain ⟨c, cs, rfl⟩ := List.exists_cons_of_ne_nil h
  rw [decode]
  split
  · split <;> exact List.cons_ne_nil _ _
  · exact List.cons_ne_nil _ _

namespace Builder

theorem legible_contentOf (content : List Char) : Markup.Legible (contentOf content) := by
  unfold contentOf
  split
  · exact legible_nil
  · rename_i hne
    exact legible_text fun h => hne (List.isEmpty_iff.mpr h)

/-- **A legible tree under construction**: its open elements may hold whatever comes, and everything
around them is legible. -/
structure Legible (b : Builder) : Prop where
  stack : ∀ o ∈ b.stack,
    (∀ children, IsElement o.element children) ∧ o.element.value = none ∧ Markup.Legible o.before
  inner : Markup.Legible b.inner

theorem legible_empty : empty.Legible := ⟨fun _ ho => absurd ho List.not_mem_nil, legible_nil⟩

theorem Legible.add {b : Builder} (h : b.Legible) {nodes : Nodes} (hnodes : Markup.Legible nodes) :
    (b.add nodes).Legible :=
  ⟨h.stack, h.inner.append hnodes⟩

/-- An element that closes stands behind the nodes before it. -/
theorem legible_closed {o : Open} (ho : (∀ children, IsElement o.element children) ∧
    o.element.value = none ∧ Markup.Legible o.before) {inner : Nodes}
    (hinner : Markup.Legible inner) :
    Markup.Legible (o.before ++ .node (.element o.element) inner .nil) := by
  obtain ⟨⟨tag, attributes, value⟩, before⟩ := o
  obtain ⟨helement, hvalue, hbefore⟩ := ho
  cases hvalue
  exact hbefore.append (legible_element (helement inner) hinner)

/-- **One token keeps the tree legible.** -/
theorem Legible.step {b b' : Builder} (h : b.Legible) {t : Token} (ht : t.Legible)
    (hstep : b.step t = .ok b') : b'.Legible := by
  cases t with
  | text raw =>
    cases hstep
    exact h.add (legible_text (decode_ne_nil ht))
  | comment body =>
    cases hstep
    refine h.add ⟨⟨?_, rfl, trivial⟩, ?_, rfl⟩
    · rw [String.toList_ofList]
      exact ht
    · exact filled_node.mpr ⟨Content.noConfusion, List.not_mem_nil, List.not_mem_nil⟩
  | opening tag attributes =>
    cases hstep
    obtain ⟨hopening, hvoid, hraw⟩ := ht
    refine ⟨fun o ho => ?_, legible_nil⟩
    rcases List.mem_cons.mp ho with rfl | ho
    · refine ⟨fun children => hopening.isElement (fun hv => ?_) fun hr => ?_, rfl, h.inner⟩
      · exact absurd (hvoid.symm.trans hv) Bool.false_ne_true
      · exact absurd (hraw.symm.trans hr) Bool.false_ne_true
    · exact h.stack o ho
  | leaf tag attributes content =>
    cases hstep
    exact h.add (legible_element ht (legible_contentOf content))
  | closing tag offset =>
    simp only [Builder.step] at hstep
    split at hstep
    · cases hstep
      exact h
    · split at hstep
      · cases hstep
      · rename_i o stack hstack
        split at hstep
        · cases hstep
          exact ⟨fun o' ho' => h.stack o' (hstack ▸ List.mem_cons_of_mem _ ho'),
            legible_closed (h.stack o (hstack ▸ List.mem_cons_self)) h.inner⟩
        · cases hstep

/-- **All tokens keep the tree legible**, up to the first that does not fit. -/
theorem Legible.run {b : Builder} (h : b.Legible) {ts : List Token}
    (hts : ∀ t ∈ ts, t.Legible) : (b.run ts).1.Legible :=
  run_keeps (fun _ _ _ hb ht => hb.step ht) h hts

theorem legible_close {stack : List Open} {inner : Nodes}
    (hstack : ∀ o ∈ stack,
      (∀ children, IsElement o.element children) ∧ o.element.value = none ∧ Markup.Legible o.before)
    (hinner : Markup.Legible inner) : Markup.Legible (close stack inner) := by
  induction stack generalizing inner with
  | nil => exact hinner
  | cons o stack ih =>
    exact ih (fun o' ho' => hstack o' (List.mem_cons_of_mem _ ho'))
      (legible_closed (hstack o List.mem_cons_self) hinner)

theorem Legible.nodes {b : Builder} (h : b.Legible) : Markup.Legible b.nodes :=
  legible_close h.stack h.inner

end Builder

/-- **What a parse builds can be written**, whether the parse succeeds or not. -/
theorem legible_parse (source : List Char) : Legible (parse source).nodes := by
  rw [nodes_parse]
  exact (Builder.legible_empty.run (legible_lex (Cursor.start source))).nodes

/-- **What is written of a parse parses again**, to the same nodes with the texts that stand side by
side joined. -/
theorem parse_render_parse (source : List Char) :
    parse (render false (parse source).nodes) = ⟨joined (parse source).nodes, none, none⟩ := by
  obtain ⟨hwritable, hfilled, hfresh⟩ := legible_parse source
  rw [parse_render_joined hwritable hfilled, map_written_joined, hfresh]

end BoundView.Markup
