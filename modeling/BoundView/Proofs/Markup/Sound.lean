import BoundView.Markup.Parse
import BoundView.Proofs.Tree.Standing

/-!
# What a parse builds is sound

Whatever the source, the nodes that a parse has built when it ends are sound: none of them is a
fragment, texts and comments have no children, and the attributes of an element have different
names. This holds of a parse that fails as well, and of the element that a failure leaves without a
parent, because a document keeps them.

Main statement: `parse_sound`. It follows the reading of one tag (`names_readAttributes`), the list
of tokens (`sound_lex`) and the tree under construction (`Builder.Sound.run`).
-/

namespace BoundView.Forest

open BoundView.Dom (Content)

theorem sound_append {f g : Forest Content} : (f ++ g).Sound ↔ f.Sound ∧ g.Sound := by
  induction f with
  | nil => exact ⟨fun h => ⟨trivial, h⟩, fun h => h.2⟩
  | node c children rest _ ih =>
    rw [node_append]
    show _ ∧ _ ∧ _ ∧ (rest ++ g).Sound ↔ (_ ∧ _ ∧ _ ∧ rest.Sound) ∧ g.Sound
    rw [ih]
    exact ⟨fun ⟨h1, h2, h3, h4, h5⟩ => ⟨⟨h1, h2, h3, h4⟩, h5⟩,
      fun ⟨⟨h1, h2, h3, h4⟩, h5⟩ => ⟨h1, h2, h3, h4, h5⟩⟩

/-- A node without siblings. -/
theorem sound_node {c : Content} {children : Forest Content} (hc : c.Sound)
    (hcontainer : children ≠ .nil → c.isContainer = true) (hchildren : children.Sound) :
    (node c children nil).Sound :=
  ⟨hc, hcontainer, hchildren, trivial⟩

end BoundView.Forest

namespace BoundView.Dom

theorem Attributes.nodup_names_addNew {attributes : Attributes} (h : attributes.names.Nodup)
    (name value : String) : (attributes.addNew name value).names.Nodup := by
  unfold addNew
  split
  · exact h
  · rename_i hnew
    simp only [Bool.or_eq_true, not_or, Bool.not_eq_true, Option.isSome_eq_false_iff,
      Option.isNone_iff_eq_none] at hnew
    have hfresh := get?_eq_none_iff.mp hnew.2
    unfold names at hfresh ⊢
    rw [List.map_append]
    refine List.nodup_append.mpr ⟨h, List.pairwise_singleton _ _, ?_⟩
    intro a ha b hb heq
    rw [List.map_singleton, List.mem_singleton] at hb
    rw [heq, hb] at ha
    exact hfresh ha

/-- An element is sound when its attributes have different names. -/
theorem Content.sound_element {e : Element} (h : e.attributes.names.Nodup) :
    (Content.element e).Sound :=
  ⟨Content.noConfusion, h⟩

theorem Content.sound_text (data : String) : (Content.text data).Sound :=
  ⟨Content.noConfusion, List.nodup_nil⟩

theorem Content.sound_comment (data : String) : (Content.comment data).Sound :=
  ⟨Content.noConfusion, List.nodup_nil⟩

end BoundView.Dom

namespace BoundView.Markup

open BoundView.Dom (Attributes Content Element)

/-! ## Tokens -/

/-- The attributes that a token carries. -/
def Token.attributes : Token → Attributes
  | .opening _ attributes | .leaf _ attributes _ => attributes
  | _ => []

/-- A token and an element are sound when their attributes have different names. -/
def Token.Sound (t : Token) : Prop := t.attributes.names.Nodup

/-- What one reading step gives is sound: its token, and what a failure leaves behind. -/
def Reading.Sound : Reading → Prop
  | .token t _ => t.Sound
  | .nothing _ => True
  | .failed last f => (∀ t ∈ last, t.Sound) ∧ ∀ e ∈ f.orphan, e.attributes.names.Nodup

/-- A failure that leaves nothing behind. -/
theorem sound_failed (e : Error) : (Reading.failed none ⟨e, none⟩).Sound :=
  ⟨fun _ ht => absurd ht (Option.not_mem_none _), fun _ he => absurd he (Option.not_mem_none _)⟩

/-- The attributes of a tag have different names, also when the tag does not end. -/
theorem names_readAttributes {start : Nat} {c : Cursor} {before : Attributes}
    (h : before.names.Nodup) : (readAttributes start c before).1.names.Nodup := by
  fun_induction readAttributes start c before with
  | case1 => exact h
  | case2 => exact h
  | case3 => exact h
  | case4 _ _ _ _ _ _ _ ih => exact ih h
  | case5 => exact h
  | case6 _ _ _ _ _ _ _ name value _ _ _ ih =>
    exact ih (Attributes.nodup_names_addNew h name (String.ofList value))

theorem sound_readRaw (tag : String) {attributes : Attributes} (start : Nat) (c : Cursor)
    (h : attributes.names.Nodup) : (readRaw tag attributes start c).Sound := by
  have leaf : ∀ content e, (Reading.failed (some (.leaf tag attributes content)) ⟨e, none⟩).Sound :=
    fun content e =>
      ⟨fun t ht => Option.mem_some_iff.mp ht ▸ h, fun _ he => absurd he (Option.not_mem_none _)⟩
  unfold readRaw
  split
  · exact leaf _ _
  · dsimp only
    split
    · exact h
    · exact leaf _ _

theorem sound_readOpening (c : Cursor) : (readOpening c).Sound := by
  have hnames : (readAttributes c.offset ((c.drop 1).takeWhile isTagNameChar).2 []).1.names.Nodup :=
    names_readAttributes List.nodup_nil
  unfold readOpening
  dsimp only
  split
  · rename_i attributes e heq
    rw [heq] at hnames
    exact ⟨fun _ ht => absurd ht (Option.not_mem_none _), fun e he => Option.mem_some_iff.mp he ▸ hnames⟩
  · rename_i attributes closed next heq
    rw [heq] at hnames
    split
    · exact hnames
    · split
      · exact sound_readRaw _ _ _ hnames
      · exact hnames

/-- **One reading step** gives something sound. -/
theorem sound_read (c : Cursor) : (read c).Sound := by
  unfold read
  split
  · unfold readComment
    split
    · exact List.nodup_nil
    · exact sound_failed _
  · unfold readClosing
    split
    · exact List.nodup_nil
    · exact sound_failed _
  · unfold readDeclaration
    split
    · trivial
    · exact sound_failed _
  · split
    · exact sound_readOpening c
    · exact List.nodup_nil
  · exact List.nodup_nil

/-- The tokens of a source are sound, and so is the element that a failure leaves. -/
theorem sound_lex (c : Cursor) :
    (∀ t ∈ (lex c).tokens, t.Sound) ∧
      ∀ f ∈ (lex c).failure, ∀ e ∈ f.orphan, e.attributes.names.Nodup := by
  constructor
  · intro t ht
    obtain ⟨c', _, ⟨next, heq⟩ | ⟨f, heq⟩⟩ := exists_read_of_mem_tokens ht
    · have hread := sound_read c'
      rw [heq] at hread
      exact hread
    · have hread := sound_read c'
      rw [heq] at hread
      exact hread.1 t rfl
  · intro f hf
    obtain ⟨c', last, heq⟩ := exists_read_of_failure hf
    have hread := sound_read c'
    rw [heq] at hread
    exact hread.2

/-! ## The tree under construction -/

namespace Builder

/-- **A sound tree under construction**: its open elements and everything around them are sound. -/
structure Sound (b : Builder) : Prop where
  stack : ∀ o ∈ b.stack, o.element.attributes.names.Nodup ∧ o.before.Sound
  inner : b.inner.Sound

theorem sound_empty : empty.Sound := ⟨fun _ ho => absurd ho List.not_mem_nil, trivial⟩

theorem Sound.add {b : Builder} (h : b.Sound) {nodes : Nodes} (hnodes : nodes.Sound) :
    (b.add nodes).Sound :=
  ⟨h.stack, Forest.sound_append.mpr ⟨h.inner, hnodes⟩⟩

theorem sound_contentOf (content : List Char) : (contentOf content).Sound := by
  unfold contentOf
  split
  · trivial
  · exact Forest.sound_node (Content.sound_text _) (fun h => absurd rfl h) trivial

/-- **One token keeps the tree sound.** -/
theorem Sound.step {b b' : Builder} (h : b.Sound) {t : Token} (ht : t.Sound)
    (hstep : b.step t = .ok b') : b'.Sound := by
  cases t with
  | text raw =>
    cases hstep
    exact h.add (Forest.sound_node (Content.sound_text _) (fun h => absurd rfl h) trivial)
  | comment body =>
    cases hstep
    exact h.add (Forest.sound_node (Content.sound_comment _) (fun h => absurd rfl h) trivial)
  | opening tag attributes =>
    cases hstep
    refine ⟨fun o ho => ?_, trivial⟩
    rcases List.mem_cons.mp ho with rfl | ho
    · exact ⟨ht, h.inner⟩
    · exact h.stack o ho
  | leaf tag attributes content =>
    cases hstep
    exact h.add (Forest.sound_node (Content.sound_element ht) (fun _ => rfl) (sound_contentOf content))
  | closing tag offset =>
    simp only [Builder.step] at hstep
    split at hstep
    · cases hstep
      exact h
    · split at hstep
      · cases hstep
      · rename_i o stack hstack
        split at hstep
        · cases hstep
          have ho := h.stack o (hstack ▸ List.mem_cons_self)
          refine ⟨fun o' ho' => h.stack o' (hstack ▸ List.mem_cons_of_mem _ ho'), ?_⟩
          exact Forest.sound_append.mpr
            ⟨ho.2, Forest.sound_node (Content.sound_element ho.1) (fun _ => rfl) h.inner⟩
        · cases hstep

/-- **All tokens keep the tree sound**, up to the first that does not fit. -/
theorem Sound.run {b : Builder} (h : b.Sound) {ts : List Token}
    (hts : ∀ t ∈ ts, t.Sound) : (b.run ts).1.Sound :=
  run_keeps (fun _ _ _ hb ht => hb.step ht) h hts

theorem sound_close {stack : List Open} {inner : Nodes}
    (hstack : ∀ o ∈ stack, o.element.attributes.names.Nodup ∧ o.before.Sound)
    (hinner : inner.Sound) : (close stack inner).Sound := by
  induction stack generalizing inner with
  | nil => exact hinner
  | cons o stack ih =>
    obtain ⟨hnames, hbefore⟩ := hstack o List.mem_cons_self
    refine ih (fun o' ho' => hstack o' (List.mem_cons_of_mem _ ho')) ?_
    exact Forest.sound_append.mpr
      ⟨hbefore, Forest.sound_node (Content.sound_element hnames) (fun _ => rfl) hinner⟩

theorem Sound.nodes {b : Builder} (h : b.Sound) : b.nodes.Sound := sound_close h.stack h.inner

end Builder

/-- **What a parse builds is sound**, whether it succeeds or not. -/
theorem parse_sound (source : List Char) :
    (parse source).nodes.Sound ∧ ∀ e ∈ (parse source).orphan, e.attributes.names.Nodup := by
  obtain ⟨htokens, horphan⟩ := sound_lex (Cursor.start source)
  constructor
  · rw [nodes_parse]
    exact (Builder.sound_empty.run htokens).nodes
  · intro e he
    obtain ⟨f, hf, hmem⟩ := exists_failure_of_mem_orphan he
    exact horphan f hf e hmem

end BoundView.Markup
