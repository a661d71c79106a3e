import BoundView.Proofs.Markup.RoundTrip
import BoundView.Proofs.Tree.Reachable
import BoundView.Proofs.Tree.Walks
import BoundView.Selector.Match

/-!
# Documents that look alike

The markup of a node depends on the links of the document and on what its nodes hold apart from live
values. So two documents with the same links whose nodes are written alike have the same markup at
every node.

Main statements: `innerHtml_congr`, `coherent_of_parse`, `exists_element_of_query`.
-/

namespace BoundView

open BoundView.Dom (Content Document Element NodeId)
open BoundView.Dom.Document (SameLinks)
open BoundView.Markup (holdsVerbatim render rendered written)

variable {κ : Type} {d e : Document κ}

theorem Forest.map_map {α β γ : Type} (g : β → γ) (f : α → β) (t : Forest α) :
    (t.map f).map g = t.map fun a => g (f a) := by
  induction t with
  | nil => rfl
  | node a children rest ihc ihr =>
    show Forest.node (g (f a)) ((children.map f).map g) ((rest.map f).map g) = _
    rw [ihc, ihr]
    rfl

theorem Forest.map_congr {α β : Type} {f g : α → β} {t : Forest α} (h : ∀ a ∈ t.preorder, f a = g a) :
    t.map f = t.map g := by
  induction t with
  | nil => rfl
  | node a children rest ihc ihr =>
    have hmem : ∀ x ∈ children.preorder ++ rest.preorder, f x = g x :=
      fun x hx => h x (List.mem_cons_of_mem _ hx)
    show Forest.node (f a) (children.map f) (rest.map f) =
      Forest.node (g a) (children.map g) (rest.map g)
    rw [h a List.mem_cons_self, ihc fun x hx => hmem x (List.mem_append_left _ hx),
      ihr fun x hx => hmem x (List.mem_append_right _ hx)]

/-! ## Markup -/

namespace Markup

theorem holdsVerbatim_written (c : Content) : holdsVerbatim (written c) = holdsVerbatim c := by
  cases c <;> rfl

/-- Markup keeps nothing but what is written. -/
theorem render_map_written (verbatim : Bool) (f : Forest Content) :
    render verbatim (f.map written) = render verbatim f := by
  induction f generalizing verbatim with
  | nil => rfl
  | node c children rest ihc ihr =>
    have hnode : ∀ inner, renderNode verbatim (written c) inner = renderNode verbatim c inner := by
      intro inner
      cases c <;> rfl
    show renderNode verbatim (written c) (render (holdsVerbatim (written c)) (children.map written)) ++
      render verbatim (rest.map written) = _
    rw [hnode, holdsVerbatim_written, ihc, ihr]
    rfl

theorem rendered_congr (verbatim : Bool) {f g : Forest Content}
    (h : g.map written = f.map written) : rendered verbatim g = rendered verbatim f := by
  have hrender : render verbatim g = render verbatim f := by
    rw [← render_map_written, h, render_map_written]
  unfold rendered
  rw [renderOnto_eq, renderOnto_eq, hrender]

end Markup

namespace Dom.Document

theorem grow_of_sameLinks (h : SameLinks d e) (depth : Nat) (ids : List NodeId) :
    e.grow depth ids = d.grow depth ids := by
  induction depth generalizing ids with
  | zero => rfl
  | succ depth ih =>
    unfold grow
    induction ids with
    | nil => rfl
    | cons id ids ihids =>
      rw [List.foldr_cons, List.foldr_cons, ihids, h.children, ih]

theorem subtrees_of_sameLinks (h : SameLinks d e) (ids : List NodeId) :
    e.subtrees ids = d.subtrees ids := by
  unfold subtrees
  rw [h.size]
  exact grow_of_sameLinks h d.size ids

theorem climb_of_sameLinks (h : SameLinks d e) (fuel : Nat) (start : Option NodeId) :
    e.climb fuel start = d.climb fuel start := by
  induction fuel generalizing start with
  | zero => rfl
  | succ fuel ih =>
    cases start with
    | none => rfl
    | some id =>
      unfold climb
      rw [h.parent?, ih]

theorem ancestors_of_sameLinks (h : SameLinks d e) (id : NodeId) :
    e.ancestors id = d.ancestors id := by
  unfold ancestors
  rw [h.size, h.parent?]
  exact climb_of_sameLinks h d.size _

/-- Documents that look alike hold the same, but for live values. -/
theorem contents_congr (hlinks : SameLinks d e)
    (hwritten : ∀ x, written (e.content x) = written (d.content x)) (ids : List NodeId) :
    (e.contents ids).map written = (d.contents ids).map written := by
  unfold contents
  rw [subtrees_of_sameLinks hlinks, Forest.map_map, Forest.map_map]
  congr 1
  funext x
  exact hwritten x

/-- The markup of a node depends on what is written in it and below it. -/
theorem innerHtml_of_written (hlinks : SameLinks d e) {id : NodeId}
    (hself : written (e.content id) = written (d.content id))
    (hbelow : (e.contents (d.children id)).map written = (d.contents (d.children id)).map written) :
    e.innerHtml id = d.innerHtml id := by
  unfold innerHtml
  rcases Nat.lt_or_ge id d.size with hlt | hge
  · obtain ⟨n, hn⟩ := d.exists_node hlt
    obtain ⟨m, hm⟩ := e.exists_node (hlinks.size.symm ▸ hlt)
    have hchildren := hlinks.children id
    rw [children_of_getElem? hn, children_of_getElem? hm] at hchildren
    rw [children_of_getElem? hn] at hbelow
    rw [content_of_getElem? hn, content_of_getElem? hm] at hself
    have hverbatim : holdsVerbatim m.content = holdsVerbatim n.content := by
      rw [← Markup.holdsVerbatim_written, hself, Markup.holdsVerbatim_written]
    rw [(d.node_eq_ok_iff).mpr hn, (e.node_eq_ok_iff).mpr hm]
    show Except.ok (rendered (holdsVerbatim m.content) (e.contents m.children)) =
      Except.ok (rendered (holdsVerbatim n.content) (d.contents n.children))
    rw [hverbatim, hchildren, Markup.rendered_congr _ hbelow]
  · rw [(d.node_eq_error_iff).mpr ⟨hge, rfl⟩,
      (e.node_eq_error_iff).mpr ⟨hlinks.size.symm ▸ hge, rfl⟩, hlinks.size]
    rfl

/-- **Documents that look alike have the same markup.** -/
theorem innerHtml_congr (hlinks : SameLinks d e)
    (hwritten : ∀ x, written (e.content x) = written (d.content x)) (id : NodeId) :
    e.innerHtml id = d.innerHtml id :=
  innerHtml_of_written hlinks (hwritten id) (contents_congr hlinks hwritten _)

/-- **Documents that hold the same at a node and below it** have the same markup there. -/
theorem innerHtml_congr_below (hd : d.Coherent) (hlinks : SameLinks d e) {id : NodeId}
    (hcontent : ∀ x, Relation.ReflTransGen d.Link x id → e.content x = d.content x) :
    e.innerHtml id = d.innerHtml id := by
  refine innerHtml_of_written hlinks (congrArg written (hcontent id .refl)) ?_
  unfold contents
  rw [subtrees_of_sameLinks hlinks]
  have hsame : ∀ x ∈ (d.subtrees (d.children id)).preorder, e.content x = d.content x := by
    intro x hx
    obtain ⟨c, hc, hxc⟩ := hd.mem_subtrees_iff.mp hx
    exact hcontent x (hxc.tail ((hd.mem_children id c).mp hc))
  rw [Forest.map_congr hsame]

/-- Nodes that hold the same have the same live value. -/
theorem value_congr (hlinks : SameLinks d e) {id : NodeId} (hcontent : e.content id = d.content id) :
    e.value id = d.value id := by
  unfold value
  rcases Nat.lt_or_ge id d.size with hlt | hge
  · obtain ⟨n, hn⟩ := d.exists_node hlt
    obtain ⟨m, hm⟩ := e.exists_node (hlinks.size.symm ▸ hlt)
    rw [content_of_getElem? hn, content_of_getElem? hm] at hcontent
    rw [(d.node_eq_ok_iff).mpr hn, (e.node_eq_ok_iff).mpr hm]
    unfold Except.map
    dsimp only
    rw [hcontent]
  · rw [(d.node_eq_error_iff).mpr ⟨hge, rfl⟩,
      (e.node_eq_error_iff).mpr ⟨hlinks.size.symm ▸ hge, rfl⟩, hlinks.size]

/-! ## Parsed documents -/

/-- **A parsed document is well formed.** -/
theorem coherent_of_parse {source : String} (h : Document.parse source = .ok d) : d.Coherent := by
  have hparse := (coherent_empty (κ := κ)).parseFragment source
  unfold Document.parse at h
  split at h
  · cases h
  · rename_i fragment d' heq
    rw [heq] at hparse
    split at h
    · rename_i happend
      cases h
      exact hparse.append happend
    · cases h
      exact hparse

end Dom.Document

/-- **What a query finds is an element** of the document. -/
theorem Selector.exists_element_of_query {selector : Selector} {root : NodeId}
    (h : selector.query d = some root) : root < d.size ∧ ∃ e, d.content root = .element e := by
  have hholds : selector.holdsAt d root = true := List.find?_some h
  have hcontent : ∃ e, d.content root = .element e := by
    unfold holdsAt matchesAt at hholds
    split at hholds
    · cases hholds
    · rename_i last others hlast
      cases hc : d.content root with
      | element e => exact ⟨e, rfl⟩
      | text data =>
        rw [hc] at hholds
        cases hholds
      | comment data =>
        rw [hc] at hholds
        cases hholds
      | document =>
        rw [hc] at hholds
        cases hholds
      | fragment =>
        rw [hc] at hholds
        cases hholds
  refine ⟨?_, hcontent⟩
  rcases Nat.lt_or_ge root d.size with hlt | hge
  · exact hlt
  · obtain ⟨e, he⟩ := hcontent
    unfold Document.content at he
    rw [d.getElem?_eq_none_of_size_le hge] at he
    cases he

end BoundView
