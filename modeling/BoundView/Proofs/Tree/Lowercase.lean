import BoundView.Proofs.Markup.Image
import BoundView.Proofs.Tree.Reachable

/-!
# Tags are in lower case

Every way to make an element gives it a tag in lower case, and no edit changes a tag. What is rendered
from an element therefore has the tag of the element.

Main statement: `LowerTags.perform`, each operation keeps the tags of a document in lower case.
-/

namespace BoundView.Markup

open BoundView.Dom (Content Element)

/-- **A tag in lower case.** -/
def LowerTag (tag : String) : Prop := Text.lowercase tag = tag

theorem lowerTag_ofList_lower (cs : List Char) : LowerTag (String.ofList (Text.lower cs)) := by
  unfold LowerTag Text.lowercase
  rw [String.toList_ofList, Text.lower_lower]

theorem lowerTag_lowercase (tag : String) : LowerTag (Text.lowercase tag) :=
  lowerTag_ofList_lower tag.toList

theorem lowercase_of_isTag {tag : String} (h : IsTag tag) : Text.lowercase tag = tag := by
  unfold Text.lowercase
  rw [h.lower, String.ofList_toList]

/-! ## Parsed elements -/

/-- The element that a reading step leaves without a parent has its tag in lower case. -/
def Reading.LowerOrphan : Reading → Prop
  | .failed _ f => ∀ e ∈ f.orphan, LowerTag e.tag
  | _ => True

theorem lowerOrphan_failed (last : Option Token) (e : Error) :
    (Reading.failed last ⟨e, none⟩).LowerOrphan :=
  fun _ he => absurd he (Option.not_mem_none _)

theorem lowerOrphan_readRaw (tag : String) (attributes : Dom.Attributes) (start : Nat) (c : Cursor) :
    (readRaw tag attributes start c).LowerOrphan := by
  unfold readRaw
  split
  · exact lowerOrphan_failed _ _
  · dsimp only
    split
    · trivial
    · exact lowerOrphan_failed _ _

theorem lowerOrphan_readOpening (c : Cursor) : (readOpening c).LowerOrphan := by
  unfold readOpening
  dsimp only
  split
  · intro e he
    rw [← Option.mem_some_iff.mp he]
    exact lowerTag_ofList_lower _
  · split
    · trivial
    · split
      · exact lowerOrphan_readRaw _ _ _ _
      · trivial

theorem lowerOrphan_read (c : Cursor) : (read c).LowerOrphan := by
  unfold read
  split
  · unfold readComment
    split
    · trivial
    · exact lowerOrphan_failed _ _
  · unfold readClosing
    split
    · trivial
    · exact lowerOrphan_failed _ _
  · unfold readDeclaration
    split
    · trivial
    · exact lowerOrphan_failed _ _
  · split
    · exact lowerOrphan_readOpening c
    · trivial
  · trivial

/-- The element that a failed parse leaves without a parent has its tag in lower case. -/
theorem lowerTag_orphan_parse (source : List Char) :
    ∀ e ∈ (parse source).orphan, LowerTag e.tag := by
  intro e he
  obtain ⟨f, hf, hmem⟩ := exists_failure_of_mem_orphan he
  obtain ⟨c, last, heq⟩ := exists_read_of_failure hf
  have hread := lowerOrphan_read c
  rw [heq] at hread
  exact hread e hmem

/-- The elements of a forest that markup can write have their tags in lower case. -/
theorem Writable.lowerTag {f : Nodes} (hf : Writable f) :
    ∀ c ∈ f.preorder, ∀ tag ∈ c.tag?, LowerTag tag := by
  induction f with
  | nil => exact fun _ hc => absurd hc List.not_mem_nil
  | node a children rest ihc ihr =>
    have both : Writable children ∧ Writable rest ∧ ∀ tag ∈ a.tag?, LowerTag tag := by
      cases a with
      | element e =>
        obtain ⟨helement, hchildren, hrest⟩ := hf
        exact ⟨hchildren, hrest, fun tag htag => Option.mem_some_iff.mp htag ▸ lowercase_of_isTag helement.tag⟩
      | text data =>
        obtain ⟨rfl, hrest⟩ := hf
        exact ⟨trivial, hrest, fun _ htag => absurd htag (Option.not_mem_none _)⟩
      | comment data =>
        obtain ⟨_, rfl, hrest⟩ := hf
        exact ⟨trivial, hrest, fun _ htag => absurd htag (Option.not_mem_none _)⟩
      | document => exact hf.elim
      | fragment => exact hf.elim
    obtain ⟨hchildren, hrest, ha⟩ := both
    intro c hc
    rcases List.mem_cons.mp hc with rfl | hc
    · exact ha
    · rcases List.mem_append.mp hc with hc | hc
      · exact ihc hchildren c hc
      · exact ihr hrest c hc

end BoundView.Markup

namespace BoundView.Dom.Document

open BoundView.Markup (LowerTag)

variable {κ : Type} {d e : Document κ}

/-- **Every element of a document has its tag in lower case.** -/
def LowerTags (d : Document κ) : Prop := ∀ x, ∀ tag ∈ (d.content x).tag?, LowerTag tag

namespace LowerTags

theorem of_sameContent (h : d.LowerTags) (same : SameContent d e) : e.LowerTags := by
  intro x
  rw [same.content]
  exact h x

theorem push (h : d.LowerTags) {content : Content} (hcontent : ∀ tag ∈ content.tag?, LowerTag tag) :
    (d.push content).LowerTags := by
  intro x
  rw [content_push]
  split
  · exact hcontent
  · exact h x

/-- A change of one node's content that keeps tags. -/
theorem setContent (h : d.LowerTags) (id : NodeId) {f : Content → Content}
    (hf : ∀ c, (f c).tag? = c.tag?) :
    (d.modify id fun n => { n with content := f n.content }).LowerTags := by
  intro x
  have hx := h x
  rw [content_modify]
  split
  · unfold content at hx
    cases hn : d.nodes[x]? with
    | none =>
      rw [hn] at hx
      exact hx
    | some n =>
      rw [hn] at hx
      intro tag htag
      exact hx tag (hf n.content ▸ htag)
  · exact hx

theorem modifyElement (h : d.LowerTags) (id : NodeId) {f : Element → Element}
    (hf : ∀ e : Element, (f e).tag = e.tag) : (d.modifyElement id f).LowerTags := by
  refine h.setContent id fun c => ?_
  cases c with
  | element e => exact congrArg some (hf e)
  | _ => rfl

/-- Tags do not look at listeners. -/
theorem setListeners (h : d.LowerTags) (id : NodeId) (g : Node κ → List (Listener κ)) (next : Nat) :
    ({ d.modify id fun n => { n with listeners := g n } with nextListener := next } :
      Document κ).LowerTags := by
  have same : SameContent d (d.modify id fun n => { n with listeners := g n }) :=
    d.sameContent_modify id fun _ => rfl
  exact h.of_sameContent ⟨same.size, same.content⟩

theorem plant (h : d.LowerTags) {parent : Nat} (hparent : parent < d.size) {seeds : Forest (Seed κ)}
    (hseeds : ∀ seed ∈ seeds.preorder, ∀ tag ∈ seed.content.tag?, LowerTag tag) :
    (d.plant parent seeds).LowerTags := by
  intro x
  rcases Nat.lt_or_ge x d.size with hold | hnew
  · rw [content_plant _ _ _ hold]
    exact h x
  · rcases Nat.lt_or_ge x (d.size + seeds.size) with hlt | hge
    · obtain ⟨seed, hseed, hcontent⟩ := (d.standing_plant hparent seeds).exists_content hnew hlt
      rw [hcontent]
      exact hseeds seed hseed
    · unfold content
      rw [getElem?_eq_none_of_size_le _ (by rw [size_plant]; exact hge)]
      exact fun _ htag => absurd htag (Option.not_mem_none _)

theorem append (h : d.LowerTags) {p c : NodeId} (hok : d.append p c = .ok e) : e.LowerTags := by
  obtain ⟨_, _, _, _, _, hmoved⟩ := d.append_eq_ok hok
  rcases hmoved with ⟨_, rfl⟩ | ⟨_, rfl⟩
  · exact h.of_sameContent (d.sameContent_moveChildren _ _ _)
  · exact h.of_sameContent (d.sameContent_moveNode _ _)

theorem clear (h : d.LowerTags) {id : NodeId} (hok : d.clear id = .ok e) : e.LowerTags :=
  h.of_sameContent (d.sameContent_clear hok)

theorem parseFragment (h : d.LowerTags) (source : String) : (d.parseFragment source).2.LowerTags := by
  have hgraft : (d.graft (Markup.parse source.toList).nodes).LowerTags := by
    have hpush : (d.push .fragment).LowerTags :=
      h.push fun _ htag => absurd htag (Option.not_mem_none _)
    refine hpush.plant ?_ ?_
    · rw [size_push]
      exact Nat.lt_succ_self _
    · intro seed hseed
      rw [Forest.preorder_map] at hseed
      obtain ⟨c, hc, rfl⟩ := List.mem_map.mp hseed
      exact (Markup.legible_parse source.toList).writable.lowerTag c hc
  unfold Document.parseFragment Document.build
  dsimp only
  split
  · rename_i element horphan
    refine hgraft.push fun tag htag => ?_
    rw [← Option.mem_some_iff.mp htag]
    exact Markup.lowerTag_orphan_parse _ element horphan
  · exact hgraft

theorem appendMarkup (h : d.LowerTags) (parent : NodeId) (source : String) :
    (d.appendMarkup parent source).2.LowerTags :=
  appendMarkup_of (h.parseFragment source) fun h hok => h.append hok

theorem setInnerHtml (h : d.LowerTags) (id : NodeId) (source : String) :
    (d.setInnerHtml id source).2.LowerTags :=
  setInnerHtml_of (h.parseFragment source) (fun h hok => h.clear hok) fun h hok => h.append hok

/-- **One operation keeps tags in lower case.** -/
theorem perform (h : d.LowerTags) (op : Operation κ) : (d.perform op).LowerTags := by
  have none : ∀ tag ∈ (Option.none : Option String), LowerTag tag :=
    fun _ htag => absurd htag (Option.not_mem_none _)
  cases op with
  | createElement tag =>
    refine h.push fun t ht => ?_
    rw [← Option.mem_some_iff.mp ht]
    exact Markup.lowerTag_lowercase tag
  | createText data => exact h.push none
  | createComment data => exact h.push none
  | createFragment => exact h.push none
  | append parent child => exact orSame_of h fun e he => h.append he
  | remove parent child =>
    refine orSame_map_snd_of h fun n => ?_
    split
    · exact h.of_sameContent (d.sameContent_detach child)
    · exact h
  | clear id => exact orSame_of h fun e he => h.clear he
  | setData id data =>
    refine orSame_map_snd_of h fun n => ?_
    split
    · split
      · exact h
      · refine h.setContent id fun c => ?_
        cases c <;> rfl
    · exact h
  | setAttribute id name value =>
    exact orSame_map_of h fun n _ => h.modifyElement id fun _ => rfl
  | removeAttribute id name =>
    exact orSame_map_snd_of h fun n => h.modifyElement id fun _ => rfl
  | setValue id value =>
    refine orSame_map_snd_of h fun n => ?_
    split
    · split
      · exact h
      · exact h.modifyElement id fun _ => rfl
    · exact h
  | parseFragment source => exact h.parseFragment source
  | appendMarkup parent source => exact h.appendMarkup parent source
  | setInnerHtml id source => exact h.setInnerHtml id source
  | listen id type action => exact h.setListeners id _ _
  | unlisten id listener =>
    refine orSame_map_snd_of h fun n => ?_
    exact h.setListeners id (fun n => n.listeners.filter (·.id != listener)) d.nextListener

end LowerTags

theorem lowerTags_empty : (empty : Document κ).LowerTags := by
  intro x
  unfold content empty
  cases x <;> exact fun _ htag => absurd htag (Option.not_mem_none _)

end BoundView.Dom.Document
