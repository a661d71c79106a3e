import BoundView.Proofs.Markup.Image
import BoundView.Proofs.Tree.Alike
import BoundView.Proofs.Tree.Contents

/-!
# Documents that are parsed, written and parsed again

Writing a parsed document and parsing what is written gives the same tree, but for texts that stand
side by side: they come back as one. So writing and parsing once more changes nothing.

Main statement: `parse_innerHtml_of_parse`. It holds for every source that parses, whatever the state
of its markup, because what a parse builds can be written (`Markup.legible_parse`). For documents that
were changed since, `exists_reparses` says the same of all contents that can be written.
-/

namespace BoundView.Dom.Document

open BoundView.Markup (Nodes Writable holdsVerbatim joined pruned render written)

variable {κ : Type} {d : Document κ}

/-- The markup of the children of a node that is there. -/
theorem innerHtml_eq {id : NodeId} (hid : id < d.size) :
    d.innerHtml id =
      .ok (Markup.rendered (holdsVerbatim (d.content id)) (d.contents (d.children id))) := by
  obtain ⟨n, hn⟩ := d.exists_node hid
  rw [content_of_getElem? hn, children_of_getElem? hn]
  unfold innerHtml
  rw [d.node_eq_ok_iff.mpr hn]
  rfl

/-- A document comes of markup only when the markup parses. -/
theorem error_eq_none_of_parse {source : String} (h : Document.parse source = .ok d) :
    (Markup.parse source.toList).error = none := by
  cases herror : (Markup.parse source.toList).error with
  | none => rfl
  | some e =>
    unfold Document.parse parseFragment at h
    dsimp only at h
    rw [herror] at h
    cases h

/-- **A parsed document holds what the parse built** under its root. -/
theorem contents_of_parse {source : String} (h : Document.parse source = .ok d) :
    d.Coherent ∧ d.contents (d.children root) = (Markup.parse source.toList).nodes := by
  obtain ⟨e, he, hcoherent, hcontents⟩ :=
    exists_parse_eq_ok (κ := κ) (Markup.parse_eq_of_error (error_eq_none_of_parse h))
  cases h.symm.trans he
  exact ⟨hcoherent, hcontents⟩

/-- The markup under the root of a parsed document. -/
theorem innerHtml_of_parse {source : String} (h : Document.parse source = .ok d) :
    d.innerHtml root = .ok (Markup.rendered false (Markup.parse source.toList).nodes) := by
  obtain ⟨hcoherent, hcontents⟩ := contents_of_parse h
  have hroot : root < d.size := hcoherent.size_pos
  rw [innerHtml_eq hroot, hcoherent.root, hcontents]
  rfl

/-- **What is written of a parsed document parses again**, to a document with the same tree up to
texts that stand side by side, which are joined; and that document is written the same way. -/
theorem parse_innerHtml_of_parse {source : String} (h : Document.parse source = .ok d) :
    ∃ (html : String) (e : Document κ), d.innerHtml root = .ok html ∧ Document.parse html = .ok e ∧
      e.contents (e.children root) = joined (d.contents (d.children root)) ∧
        e.innerHtml root = .ok html := by
  have hparse : Markup.parse (Markup.rendered false (Markup.parse source.toList).nodes).toList =
      ⟨joined (Markup.parse source.toList).nodes, none, none⟩ := by
    rw [Markup.toList_rendered]
    exact Markup.parse_render_parse source.toList
  obtain ⟨e, he, _, hcontents⟩ := exists_parse_eq_ok (κ := κ) hparse
  refine ⟨_, e, innerHtml_of_parse h, he, ?_, ?_⟩
  · rw [hcontents, (contents_of_parse h).2]
  · have hsame : Markup.rendered false (joined (Markup.parse source.toList).nodes) =
        Markup.rendered false (Markup.parse source.toList).nodes := by
      rw [← String.toList_inj, Markup.toList_rendered, Markup.toList_rendered, Markup.render_joined]
    rw [innerHtml_of_parse he, hparse, hsame]

/-- Markup with an odd name of an attribute, a `<` that begins nothing, tags without use between
texts, a textarea that closes in another case, and an element that does not close. -/
def soup : String :=
  "<P CLASS=a class=b =c>1 <2<!doctype>3</br>&amp;<br/><TextArea><b></TEXTAREA ><i>"

/-- What a parse builds from it. -/
def soupNodes : Nodes :=
  .node (.element ⟨"p", [⟨"class", "a"⟩], none⟩)
    (.node (.text "1 <2") .nil (.node (.text "3") .nil (.node (.text "&") .nil
      (.node (.element ⟨"br", [], none⟩) .nil
        (.node (.element ⟨"textarea", [], none⟩) (.single (.text "<b>"))
          (.node (.element ⟨"i", [], none⟩) .nil .nil)))))) .nil

theorem parse_innerHtml_soup :
    ∃ (d : Document Unit) (html : String) (e : Document Unit),
      Document.parse soup = .ok d ∧ d.contents (d.children root) = soupNodes ∧
        d.innerHtml root = .ok html ∧ Document.parse html = .ok e ∧
          e.contents (e.children root) = joined soupNodes ∧ e.innerHtml root = .ok html := by
  have hsource : Markup.parse soup.toList = ⟨soupNodes, none, none⟩ := by decide +kernel
  obtain ⟨d, hd, _, hcontents⟩ := exists_parse_eq_ok (κ := Unit) hsource
  obtain ⟨html, e, hhtml, he, htree, hagain⟩ := parse_innerHtml_of_parse hd
  rw [hcontents] at htree
  exact ⟨d, html, e, hd, hcontents, hhtml, he, htree, hagain⟩

/-! ## Documents in general -/

/-- **The markup of a node's children parses again**, to a document with what the node holds but for
live values and empty texts, and with texts that stand side by side joined. -/
def Reparses (d : Document κ) (id : NodeId) (e : Document κ) : Prop :=
  ∃ html, d.innerHtml id = .ok html ∧ Document.parse html = .ok e ∧
    e.contents (e.children root) = joined (pruned ((d.contents (d.children id)).map written))

/-- **Writable contents parse again**, whatever live values there are. -/
theorem exists_reparses {id : NodeId} (hid : id < d.size)
    (hverbatim : holdsVerbatim (d.content id) = false) {f : Forest Content} (hf : Writable f)
    (hcontents : (d.contents (d.children id)).map written = f.map written) :
    ∃ e : Document κ, Reparses d id e := by
  have hparse : Markup.parse (Markup.rendered false (d.contents (d.children id))).toList =
      ⟨joined (pruned (f.map written)), none, none⟩ := by
    rw [Markup.rendered_congr false hcontents, Markup.toList_rendered, Markup.parse_render_pruned hf,
      Markup.map_written_joined, Markup.map_written_pruned]
  obtain ⟨e, he, _, hholds⟩ := exists_parse_eq_ok (κ := κ) hparse
  refine ⟨e, _, ?_, he, ?_⟩
  · rw [innerHtml_eq hid, hverbatim]
  · rw [hholds, hcontents]

/-- The children of a node in writable trees are writable. -/
theorem Coherent.writable_children (h : d.Coherent) {ids : List NodeId} {x : NodeId}
    (hwritable : Writable (d.contents ids)) (hx : x ∈ (d.subtrees ids).preorder) :
    Writable (d.contents (d.children x)) := by
  induction ids using h.children_induction with
  | nil =>
    rw [Coherent.subtrees_nil] at hx
    cases hx
  | cons id ids ihc ihr =>
    rw [h.contents_cons] at hwritable
    rw [h.subtrees_cons] at hx
    obtain ⟨hchildren, hrest⟩ := Markup.writable_parts hwritable
    rcases List.mem_cons.mp hx with rfl | hx
    · exact hchildren
    · rcases List.mem_append.mp hx with hx | hx
      · exact ihc hchildren hx
      · exact ihr hrest hx

/-- **Below every node of a parsed document** stands what markup can write. -/
theorem writable_of_parse {source : String} (h : Document.parse source = .ok d) {x : NodeId}
    (hx : x ∈ d.descendants root) : Writable (d.contents (d.children x)) := by
  obtain ⟨hcoherent, hcontents⟩ := contents_of_parse h
  rw [hcoherent.descendants_eq_preorder] at hx
  refine hcoherent.writable_children ?_ hx
  rw [hcontents]
  exact (Markup.legible_parse _).writable

end BoundView.Dom.Document
