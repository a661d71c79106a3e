import BoundView.Proofs.Markup.Scanning
import BoundView.Proofs.Tree.Parsing
import BoundView.Proofs.Tree.Reparsing

/-!
# Writing back what was read

The markup of a node's children can be parsed for that node again. The parse does not know the node it
is for. It reads a text with its references, and tags as elements; so it gives back what was written of
every element but one whose text is written **verbatim**, a `script` or a `style`. What these hold comes
back only if it **survives**: parsed as ordinary markup it gives no error, and is written the same way
under such an element.

The markup of the page has the markup of the node's children in one place, and nothing else of it
depends on them (`render_eq_iff`). So the page stays as it is exactly when that markup does.

Main statements: `transGen_root_of_parse`, all that a source makes lies below the root;
`setInnerHtml_innerHtml`.
-/

namespace BoundView.Markup

open BoundView.Dom (Content Element)

/-- A text without `<` is read as one text. -/
theorem parse_text {cs : List Char} (hne : cs ≠ []) (h : '<' ∉ cs) :
    parse cs = ⟨.single (.text (String.ofList (decode cs))), none, none⟩ := by
  have hread := read_text 0 hne h (.inl rfl)
  rw [List.append_nil] at hread
  have hstep : Builder.empty.step (.text cs) =
      .ok (Builder.empty.add (.single (.text (String.ofList (decode cs))))) := rfl
  have hresume := Builder.resume_token (c := ⟨0, cs⟩) hne hread hstep
  rw [Builder.resume_nil] at hresume
  obtain ⟨hrun, hfailure⟩ := Prod.mk.inj hresume
  exact parse_eq_of_run hrun hfailure

/-- **A text survives** being parsed as ordinary markup and written again. -/
def Survives (verbatim : Bool) (html : String) : Prop :=
  (parse html.toList).error = none ∧ rendered verbatim (parse html.toList).nodes = html

/-- What is written of a writable forest, but not verbatim, survives. -/
theorem Writable.survives {f : Forest Content} (hf : Writable f) : Survives false (rendered false f) := by
  have hparse := parse_render_pruned hf
  rw [← toList_rendered] at hparse
  constructor
  · rw [hparse]
  · rw [hparse, ← String.toList_inj]
    simp only [toList_rendered, render_map_written, render_joined, render_pruned]

/-- A text without markup in it survives. -/
theorem survives_of_plain {html : String} (h : ∀ c ∈ html.toList, c ≠ '<' ∧ c ≠ '&') :
    Survives true html := by
  rcases eq_or_ne html.toList [] with hnil | hne
  · have hparse : parse [] = ⟨.nil, none, none⟩ := parse_render (f := .nil) trivial
    constructor
    · rw [hnil, hparse]
    · rw [hnil, hparse, String.toList_eq_nil_iff.mp hnil]
      rfl
  · have hamp : '&' ∉ html.toList := fun hmem => (h '&' hmem).2 rfl
    have hparse := parse_text hne fun hmem => (h '<' hmem).1 rfl
    rw [decode_of_not_mem hamp, String.ofList_toList] at hparse
    constructor
    · rw [hparse]
    · rw [hparse, ← String.toList_inj, toList_rendered]
      simp [Forest.single, render, renderNode]

/-- What is written of a node with children depends on each character that is written of these. -/
theorem renderNode_inj {verbatim : Bool} {c : Content} {children rest : Forest Content}
    (h : Writable (.node c children rest)) (hchildren : children ≠ .nil) {inner inner' : List Char} :
    renderNode verbatim c inner' = renderNode verbatim c inner ↔ inner' = inner := by
  cases c with
  | element e =>
    have hvoid : ¬ isVoid e.tag = true := fun hvoid => hchildren (h.1.void hvoid)
    simp [renderNode, hvoid]
  | text data => exact absurd h.1 hchildren
  | comment data => exact absurd h.2.1 hchildren
  | document => exact h.elim
  | fragment => exact h.elim

end BoundView.Markup

namespace BoundView.Dom.Document

open BoundView.Markup (Survives Writable holdsVerbatim isVerbatim isVoid render renderNode rendered)
open Relation (TransGen ReflTransGen)

variable {κ : Type} {d d' : Document κ}

/-- What stood in a fragment lies below the root when the fragment's children were moved there. -/
theorem Standing.transGen_moved {grafted : Document κ} {seeds : Forest (Seed κ)}
    (h : grafted.Standing (some 1) 2 seeds) (hsize : grafted.size = 2 + seeds.size) {x : Nat} (h1 : 1 < x)
    (h2 : x < grafted.size) : TransGen (grafted.moveChildren root 1 (seeds.tops 2)).Link x root := by
  have htops : ∀ c ∈ seeds.tops 2, c < grafted.size := by
    intro c hc
    have := Forest.mem_tops hc
    omega
  induction x using Nat.strong_induction_on with
  | _ x ih =>
    have hlink := grafted.parent?_moveChildren root 1 htops x
    split at hlink
    · exact .single hlink
    · rename_i htop
      rcases h.mem_tops_or_link h1 (by omega) with htop' | ⟨q, hq, hqx, hparent, -⟩
      · exact absurd htop' htop
      · exact .head (hlink.trans hparent) (ih q hqx hq (by omega))

theorem lt_size_of_element {n : NodeId} {e : Element} (hn : d.content n = .element e) : n < d.size := by
  by_contra hge
  rw [content, d.getElem?_eq_none_of_size_le (Nat.le_of_not_lt hge)] at hn
  cases hn

/-- **Every element that a source makes lies below the root.** -/
theorem transGen_root_of_parse {source : String} (h : Document.parse source = .ok d) {n : Nat} {e : Element}
    (hn : d.content n = .element e) : TransGen d.Link n root := by
  have hroot : d.content 0 = .document := (contents_of_parse h).1.root
  have hlt := lt_size_of_element hn
  have hparse := parse_eq_ok (κ := κ) (Markup.parse_eq_of_error (error_eq_none_of_parse h))
  cases h.symm.trans hparse
  have hfragment := content_of_getElem? ((empty : Document κ).getElem?_plant_fragment
    ((Markup.parse source.toList).nodes.map Seed.plain))
  have same := ((empty : Document κ).graft (Markup.parse source.toList).nodes).sameContent_moveChildren root 1
    (((Markup.parse source.toList).nodes.map (Seed.plain (κ := κ))).tops 2)
  apply ((empty : Document κ).standing_plant_fragment _).transGen_moved
    ((empty : Document κ).size_plant_fragment _)
  · by_contra hle
    obtain rfl | rfl : n = 0 ∨ n = 1 := by omega
    · rw [hroot] at hn
      cases hn
    · have hone := (same.content 1).symm.trans hn
      cases hfragment.symm.trans hone
  · exact same.size ▸ hlt

/-- Two documents agree on the trees at some nodes, but for the children of one node. -/
structure AgreeBut (d d' : Document κ) (n : NodeId) (ids : List NodeId) : Prop where
  content : ∀ x ∈ (d.subtrees ids).preorder, d'.content x = d.content x
  children : ∀ x ∈ (d.subtrees ids).preorder, x ≠ n → d'.children x = d.children x

section Agree

variable {n id : NodeId} {ids : List NodeId}

theorem Coherent.preorder_cons (h : d.Coherent) (id : NodeId) (ids : List NodeId) :
    (d.subtrees (id :: ids)).preorder =
      id :: ((d.subtrees (d.children id)).preorder ++ (d.subtrees ids).preorder) := by
  rw [h.subtrees_cons]
  rfl

/-- What agrees on a tree and those beside it agrees on each part. -/
theorem AgreeBut.parts (h : d.Coherent) (hagree : AgreeBut d d' n (id :: ids)) :
    d'.content id = d.content id ∧ (id ≠ n → d'.children id = d.children id) ∧
      AgreeBut d d' n (d.children id) ∧ AgreeBut d d' n ids := by
  obtain ⟨hcontent, hchildren⟩ := hagree
  simp only [h.preorder_cons, List.mem_cons, List.mem_append] at hcontent hchildren
  constructor
  · exact hcontent id (.inl rfl)
  · constructor
    · exact hchildren id (.inl rfl)
    · constructor
      · exact ⟨fun x hx => hcontent x (.inr (.inl hx)), fun x hx => hchildren x (.inr (.inl hx))⟩
      · exact ⟨fun x hx => hcontent x (.inr (.inr hx)), fun x hx => hchildren x (.inr (.inr hx))⟩

/-- Away from the node, what agrees holds the same. -/
theorem AgreeBut.contents_eq (h : d.Coherent) (h' : d'.Coherent) (hagree : AgreeBut d d' n ids)
    (hn : n ∉ (d.subtrees ids).preorder) : d'.contents ids = d.contents ids := by
  induction ids using h.children_induction with
  | nil => rw [contents_nil, contents_nil]
  | cons id ids ihc ihr =>
    simp only [h.preorder_cons, List.mem_cons, List.mem_append, not_or] at hn
    obtain ⟨hne, hbelow, hbeside⟩ := hn
    obtain ⟨hcontent, hchildren, hagreec, hagreer⟩ := hagree.parts h
    rw [h.contents_cons, h'.contents_cons, hcontent, hchildren (Ne.symm hne), ihc hagreec hbelow,
      ihr hagreer hbeside]

/-- **The node's place in the markup**: what is written of trees that hold the node once is the same just
if what is written of its children is, unless nothing is. -/
theorem AgreeBut.render_eq_iff (h : d.Coherent) (h' : d'.Coherent) (hagree : AgreeBut d d' n ids)
    (hwritable : Writable (d.contents ids)) (hnodup : (d.subtrees ids).preorder.Nodup)
    (hn : n ∈ (d.subtrees ids).preorder) {e : Element} (he : d.content n = .element e) (verbatim : Bool) :
    render verbatim (d'.contents ids) = render verbatim (d.contents ids) ↔
      isVoid e.tag = true ∨ render (isVerbatim e.tag) (d'.contents (d'.children n)) =
        render (isVerbatim e.tag) (d.contents (d.children n)) := by
  induction ids using h.children_induction generalizing verbatim with
  | nil =>
    rw [Coherent.subtrees_nil] at hn
    cases hn
  | cons id ids ihc ihr =>
    obtain ⟨hcontent, hchildren, hagreec, hagreer⟩ := hagree.parts h
    rw [h.contents_cons] at hwritable
    obtain ⟨hwritablec, hwritabler⟩ := Markup.writable_parts hwritable
    simp only [h.preorder_cons, List.mem_cons, List.mem_append] at hn
    rw [h.preorder_cons, List.nodup_cons, List.nodup_append] at hnodup
    obtain ⟨hid, hnodupc, hnodupr, hapart⟩ := hnodup
    rw [h.contents_cons, h'.contents_cons, hcontent]
    simp only [render]
    by_cases heq : id = n
    · subst heq
      have hbeside : d'.contents ids = d.contents ids :=
        hagreer.contents_eq h h' fun hmem => hid (List.mem_append_right _ hmem)
      rw [hbeside, he, List.append_cancel_right_eq]
      by_cases hvoid : isVoid e.tag = true
      · simp [renderNode, hvoid]
      · simp [renderNode, hvoid, holdsVerbatim]
    · rw [hchildren heq]
      rcases hn with hself | hbelow | hbeside
      · exact absurd hself.symm heq
      · have hrest : d'.contents ids = d.contents ids :=
          hagreer.contents_eq h h' fun hmem => hapart n hbelow n hmem rfl
        have hne : d.contents (d.children id) ≠ .nil := by
          intro hnil
          have hpreorder := congrArg Forest.preorder hnil
          rw [contents, Forest.preorder_map] at hpreorder
          rw [List.map_eq_nil_iff.mp hpreorder] at hbelow
          cases hbelow
        rw [hrest, List.append_cancel_right_eq, Markup.renderNode_inj hwritable hne]
        exact ihc hagreec hwritablec hnodupc hbelow _
      · have hsame : d'.contents (d.children id) = d.contents (d.children id) :=
          hagreec.contents_eq h h' fun hmem => hapart n hmem n hbeside rfl
        rw [hsame, List.append_cancel_left_eq]
        exact ihr hagreer hwritabler hnodupr hbeside _

end Agree

/-! ## Writing back -/

/-- **Writing back** what a node holds, `html`, succeeds and leaves the page's markup as it is. -/
def WritesBack (d : Document κ) (n : NodeId) (html page : String) : Prop :=
  (d.setInnerHtml n html).1 = .ok (.ok ()) ∧ (d.setInnerHtml n html).2.innerHtml root = .ok page

/-- Nodes that were there keep what they hold, and their children but for the one node. -/
theorem ParsesBeside.kept {source : String} {n : NodeId} (h : ParsesBeside d source n)
    (hverdict : d.verdict n source = .ok (.ok ())) {x : NodeId} (hx : x < d.size) :
    (d.setInnerHtml n source).2.content x = d.content x ∧
      (x ≠ n → (d.setInnerHtml n source).2.children x = d.children x) := by
  obtain ⟨node, hnode⟩ := d.exists_node hx
  have hslot := h.replaced hverdict x hx
  rw [hnode, Option.map_some] at hslot
  rw [content_of_getElem? hslot, content_of_getElem? hnode, children_of_getElem? hslot,
    children_of_getElem? hnode]
  exact ⟨rfl, fun hne => if_neg hne⟩

/-- Putting nodes into the place of a node's children changes nothing else of the trees. -/
theorem ParsesBeside.agreeBut {source : String} {n : NodeId} (h : ParsesBeside d source n)
    (hcoherent : d.Coherent) (hverdict : d.verdict n source = .ok (.ok ())) (p : NodeId) :
    AgreeBut d (d.setInnerHtml n source).2 n (d.children p) := by
  have hlt : ∀ x ∈ (d.subtrees (d.children p)).preorder, x < d.size := by
    intro x hx
    rw [← hcoherent.descendants_eq_preorder, hcoherent.mem_descendants_iff] at hx
    obtain ⟨q, hq, -⟩ := TransGen.head'_iff.mp hx
    exact d.lt_size_of_parent? hq
  constructor
  · intro x hx
    exact (h.kept hverdict (hlt x hx)).1
  · intro x hx
    exact (h.kept hverdict (hlt x hx)).2

/-- Parsing for an element succeeds when the text parses. -/
theorem verdict_eq_ok_iff {n : NodeId} {e : Element} (hn : d.content n = .element e) (source : String) :
    d.verdict n source = .ok (.ok ()) ↔ (Markup.parse source.toList).error = none := by
  unfold verdict parseFragment
  cases herror : (Markup.parse source.toList).error with
  | none => simp [herror, hn, Content.isContainer]
  | some error => simp [herror]

/-- **The page after an edit that parses** is written as before just if the children of the node are. -/
theorem page_eq_iff {source html : String} (h : Document.parse source = .ok d) {n : Nat} {e : Element}
    (hn : d.content n = .element e) (herror : (Markup.parse html.toList).error = none) :
    (d.setInnerHtml n html).2.innerHtml root = .ok (rendered false (d.contents (d.children root))) ↔
      isVoid e.tag = true ∨ rendered (isVerbatim e.tag) (Markup.parse html.toList).nodes =
        rendered (isVerbatim e.tag) (d.contents (d.children n)) := by
  have hcoherent := (contents_of_parse h).1
  have hne : root ≠ n := by
    rintro rfl
    rw [hcoherent.root] at hn
    cases hn
  have hbeside := hcoherent.parsesBeside html (lt_size_of_element hn)
  have hverdict := (verdict_eq_ok_iff hn html).mpr herror
  have hagree := hbeside.agreeBut hcoherent hverdict root
  have hnew := hcoherent.setInnerHtml n html
  have hwritable : Writable (d.contents (d.children root)) := by
    rw [(contents_of_parse h).2]
    exact (Markup.legible_parse _).writable
  have hmem : n ∈ (d.subtrees (d.children root)).preorder := by
    rw [← hcoherent.descendants_eq_preorder, hcoherent.mem_descendants_iff]
    exact transGen_root_of_parse h hn
  have hroot : root < d.size := hcoherent.size_pos
  have hroot' : root < (d.setInnerHtml n html).2.size := hnew.size_pos
  have hverbatim : holdsVerbatim ((d.setInnerHtml n html).2.content root) = false := by
    rw [hnew.root]
    rfl
  rw [innerHtml_eq hroot', hverbatim, (hbeside.kept hverdict hroot).2 hne, Except.ok.injEq,
    ← String.toList_inj, ← String.toList_inj]
  simp only [Markup.toList_rendered]
  rw [hagree.render_eq_iff hcoherent hnew hwritable
    (hcoherent.nodup_subtrees (hcoherent.pairwise_children root)) hmem hn, hbeside.holds hverdict]

theorem not_isVoid_of_isVerbatim {tag : String} (h : isVerbatim tag = true) : ¬ isVoid tag = true := by
  simp only [isVerbatim, Markup.verbatimTags, List.contains_iff_mem, List.mem_cons, List.not_mem_nil,
    or_false] at h
  rcases h with rfl | rfl
  · decide
  · decide

/-- What is written of an element, but not verbatim, survives. -/
theorem survives_of_parse {source : String} (h : Document.parse source = .ok d) {n : Nat} {e : Element}
    (hn : d.content n = .element e) : Survives false (rendered false (d.contents (d.children n))) := by
  apply Markup.Writable.survives
  apply writable_of_parse h
  rw [(contents_of_parse h).1.mem_descendants_iff]
  exact transGen_root_of_parse h hn

/-- **What is written back is what survives.** -/
theorem writesBack_iff {source : String} (h : Document.parse source = .ok d) {n : Nat} {e : Element}
    (hn : d.content n = .element e) :
    WritesBack d n (rendered (isVerbatim e.tag) (d.contents (d.children n)))
        (rendered false (d.contents (d.children root))) ↔
      Survives (isVerbatim e.tag) (rendered (isVerbatim e.tag) (d.contents (d.children n))) := by
  generalize hhtml : rendered (isVerbatim e.tag) (d.contents (d.children n)) = html
  have hanswer := ((contents_of_parse h).1.parsesBeside html (lt_size_of_element hn)).answers.1
  unfold WritesBack Survives
  rw [hanswer, verdict_eq_ok_iff hn]
  apply and_congr_right
  intro herror
  rw [page_eq_iff h hn herror, hhtml]
  apply or_iff_right_of_imp
  -- Nothing is written in a void element, and none is verbatim.
  intro hvoid
  have hverbatim : isVerbatim e.tag = false := by
    by_contra hverbatim
    exact not_isVoid_of_isVerbatim (by simpa using hverbatim) hvoid
  have hsurvives := survives_of_parse h hn
  rw [hverbatim] at hhtml ⊢
  rw [hhtml] at hsurvives
  exact hsurvives.2

/-- **Writing back what was read.** For every source that parses and every element of its document, the
markup of the element's children can be parsed for the element again without changing the page's markup,
if the element is none whose text is verbatim. If it is, this is so exactly when what it holds survives
being parsed as ordinary markup, as a text does that holds neither `<` nor `&`. -/
theorem setInnerHtml_innerHtml {source : String} (h : Document.parse source = .ok d) {n : Nat}
    {e : Element} (hn : d.content n = .element e) :
    ∃ html page : String, d.innerHtml n = .ok html ∧ d.innerHtml root = .ok page ∧
      (isVerbatim e.tag = false → WritesBack d n html page) ∧
      (isVerbatim e.tag = true → (WritesBack d n html page ↔ Survives true html)) ∧
      ((∀ c ∈ html.toList, c ≠ '<' ∧ c ≠ '&') → WritesBack d n html page) := by
  have hcoherent := (contents_of_parse h).1
  have hroot : root < d.size := hcoherent.size_pos
  have hhtml := innerHtml_eq (lt_size_of_element hn)
  have hpage := innerHtml_eq hroot
  have hback := writesBack_iff h hn
  have hsurvives := survives_of_parse h hn
  rw [hn] at hhtml
  rw [hcoherent.root] at hpage
  simp only [holdsVerbatim] at hhtml hpage
  generalize isVerbatim e.tag = verbatim at hhtml hback ⊢
  use rendered verbatim (d.contents (d.children n)), rendered false (d.contents (d.children root)), hhtml, hpage
  cases verbatim with
  | false =>
    have hwritten := hback.mpr hsurvives
    exact ⟨fun _ => hwritten, by simp, fun _ => hwritten⟩
  | true =>
    exact ⟨by simp, fun _ => hback, fun hplain => hback.mpr (Markup.survives_of_plain hplain)⟩

/-- A paragraph and a script, both with a reference in their source. -/
def scripted : String := "<p>a &lt; b</p><script>a&amp;b</script>"

/-- What a parse builds from it. -/
def scriptedNodes : Markup.Nodes :=
  .node (.element ⟨"p", [], none⟩) (.single (.text "a < b"))
    (.node (.element ⟨"script", [], none⟩) (.single (.text "a&amp;b")) .nil)

/-- The document made from it. -/
def scriptedPage : Document Unit :=
  ((empty : Document Unit).graft scriptedNodes).moveChildren root 1
    ((scriptedNodes.map (Seed.plain (κ := Unit))).tops 2)

theorem parse_scripted : Document.parse scripted = .ok scriptedPage :=
  parse_eq_ok (by decide +kernel)

/-- The paragraph is written back. -/
theorem setInnerHtml_innerHtml_paragraph :
    Document.parse scripted = .ok scriptedPage ∧ scriptedPage.content 2 = .element ⟨"p", [], none⟩ ∧
      isVerbatim "p" = false ∧ ∃ html page : String, scriptedPage.innerHtml 2 = .ok html ∧
        scriptedPage.innerHtml root = .ok page ∧ WritesBack scriptedPage 2 html page := by
  have hcontent : scriptedPage.content 2 = .element ⟨"p", [], none⟩ := by decide +kernel
  have hordinary : isVerbatim "p" = false := by decide
  obtain ⟨html, page, hhtml, hpage, hback, -⟩ := setInnerHtml_innerHtml parse_scripted hcontent
  exact ⟨parse_scripted, hcontent, hordinary, html, page, hhtml, hpage, hback hordinary⟩

/-- The script is not: its text comes back with the reference read. -/
theorem script_written_back :
    Document.parse scripted = .ok scriptedPage ∧ scriptedPage.content 4 = .element ⟨"script", [], none⟩ ∧
      scriptedPage.innerHtml 4 = .ok "a&amp;b" ∧
      (scriptedPage.setInnerHtml 4 "a&amp;b").1 = .ok (.ok ()) ∧
      scriptedPage.innerHtml root = .ok "<p>a &lt; b</p><script>a&amp;b</script>" ∧
      (scriptedPage.setInnerHtml 4 "a&amp;b").2.innerHtml root =
        .ok "<p>a &lt; b</p><script>a&b</script>" := by
  have hcontent : scriptedPage.content 4 = .element ⟨"script", [], none⟩ := by decide +kernel
  have hhtml : scriptedPage.innerHtml 4 = .ok "a&amp;b" := by decide +kernel
  have hset : (scriptedPage.setInnerHtml 4 "a&amp;b").1 = .ok (.ok ()) := by decide +kernel
  have hpage : scriptedPage.innerHtml root = .ok "<p>a &lt; b</p><script>a&amp;b</script>" := by
    decide +kernel
  have hafter : (scriptedPage.setInnerHtml 4 "a&amp;b").2.innerHtml root =
      .ok "<p>a &lt; b</p><script>a&b</script>" := by decide +kernel
  exact ⟨parse_scripted, hcontent, hhtml, hset, hpage, hafter⟩

end BoundView.Dom.Document
