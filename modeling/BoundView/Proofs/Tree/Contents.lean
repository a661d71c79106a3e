import BoundView.Proofs.Markup.Joining
import BoundView.Proofs.Tree.Reachable

/-!
# What a document holds

A forest that stands in a coherent document is what the document holds at its top nodes, and a
document made from markup holds the parsed forest under its root. With the round trip of markup this
gives the round trip of documents: the markup of a node's children makes a document with the same
children, up to the live values, which markup does not hold.

Main statements: `Coherent.contents_of_standing`, `exists_parse_eq_ok`, `parse_innerHtml`.
-/

namespace BoundView.Markup

open BoundView.Dom (Content)

/-- What markup can write, a document can hold. -/
theorem Writable.sound {f : Forest Content} (hf : Writable f) : f.Sound := by
  induction f with
  | nil => trivial
  | node c children rest ihc ihr =>
    cases c with
    | element e =>
      obtain ⟨he, hchildren, hrest⟩ := hf
      exact ⟨Content.sound_element he.distinct, fun _ => rfl, ihc hchildren, ihr hrest⟩
    | text data =>
      obtain ⟨hnil, hrest⟩ := hf
      subst hnil
      exact ⟨Content.sound_text data, fun h => absurd rfl h, trivial, ihr hrest⟩
    | comment data =>
      obtain ⟨_, hnil, hrest⟩ := hf
      subst hnil
      exact ⟨Content.sound_comment data, fun h => absurd rfl h, trivial, ihr hrest⟩
    | document => exact hf.elim
    | fragment => exact hf.elim

theorem WellFormed.sound {f : Forest Content} (hf : WellFormed f) : f.Sound := hf.writable.sound

end BoundView.Markup

namespace BoundView.Dom.Document

open BoundView.Markup (Nodes WellFormed holdsVerbatim render written)

variable {κ : Type} {d e : Document κ}

theorem Coherent.contents_cons (h : d.Coherent) (id : NodeId) (ids : List NodeId) :
    d.contents (id :: ids) =
      .node (d.content id) (d.contents (d.children id)) (d.contents ids) :=
  h.walksEnd.contents id ids

theorem contents_nil (d : Document κ) : d.contents [] = .nil := by
  unfold contents
  rw [Coherent.subtrees_nil]
  rfl

/-- **A document holds a forest where it stands**, and keeps holding it while the contents and the
children of its nodes stay as they are. -/
theorem Coherent.contents_of_standing (h : e.Coherent) {parent : Option NodeId} {base : Nat}
    {f : Forest (Seed κ)} (hstanding : d.Standing parent base f)
    (same : ∀ x : Nat, base ≤ x → x < base + f.size →
      e.content x = d.content x ∧ e.children x = d.children x) :
    e.contents (f.tops base) = f.map Seed.content := by
  induction f generalizing parent base with
  | nil => exact e.contents_nil
  | node seed children rest ihc ihr =>
    obtain ⟨⟨first, hnode⟩, hchildren, hrest⟩ := hstanding
    simp only [Forest.size] at same
    obtain ⟨hcontent, hlist⟩ := same base (Nat.le_refl _) (by omega)
    have hc := ihc hchildren fun x h1 h2 => same x (by omega) (by omega)
    have hr := ihr hrest fun x h1 h2 => same x (by omega) (by omega)
    rw [content_of_getElem? hnode] at hcontent
    rw [children_of_getElem? hnode] at hlist
    show e.contents (base :: rest.tops _) = _
    rw [h.contents_cons, hcontent, hlist, hc, hr]
    rfl

/-- The document with nothing but an empty fragment beside its root. -/
theorem append_graft (nodes : Nodes) :
    ((empty : Document κ).graft nodes).append root 1 =
      .ok (((empty : Document κ).graft nodes).moveChildren root 1
        ((nodes.map (Seed.plain (κ := κ))).tops 2)) := by
  have hroot : (0 : Nat) < ((empty : Document κ).push .fragment).size := Nat.zero_lt_succ 1
  have hone : (1 : Nat) < ((empty : Document κ).push .fragment).size := Nat.lt_succ_self 1
  have hsize := ((empty : Document κ).push .fragment).size_plant 1 (nodes.map (Seed.plain (κ := κ)))
  have hchildren : ((empty : Document κ).graft nodes).children 1 =
      (nodes.map (Seed.plain (κ := κ))).tops 2 :=
    children_plant ((empty : Document κ).push .fragment) 1 (nodes.map Seed.plain) hone
  rw [← hchildren]
  refine append_fragment _ ?_ ?_ ?_ ?_ ?_ ?_
  · exact Nat.lt_of_lt_of_le hroot (hsize ▸ Nat.le_add_right _ _)
  · exact Nat.lt_of_lt_of_le hone (hsize ▸ Nat.le_add_right _ _)
  · exact congrArg Content.isContainer
      (content_plant ((empty : Document κ).push .fragment) 1 (nodes.map Seed.plain) hroot)
  · exact content_plant ((empty : Document κ).push .fragment) 1 (nodes.map Seed.plain) hone
  · decide
  · have hparent : ((empty : Document κ).graft nodes).parent? root = none :=
      parent?_plant ((empty : Document κ).push .fragment) 1 (nodes.map Seed.plain) hroot
    unfold ancestors
    rw [hparent]
    intro hmem
    cases hs : ((empty : Document κ).graft nodes).size <;> rw [hs] at hmem <;> cases hmem

theorem parseFragment_empty {source : String} {nodes : Nodes}
    (h : Markup.parse source.toList = ⟨nodes, none, none⟩) :
    (empty : Document κ).parseFragment source = (.ok 1, (empty : Document κ).graft nodes) := by
  unfold parseFragment build
  rw [h]
  rfl

/-- A document made from markup is what a fragment's forest becomes when it is moved to the root. -/
theorem parse_eq_ok {source : String} {nodes : Nodes}
    (h : Markup.parse source.toList = ⟨nodes, none, none⟩) :
    Document.parse source = .ok (((empty : Document κ).graft nodes).moveChildren root 1
      ((nodes.map (Seed.plain (κ := κ))).tops 2)) := by
  unfold Document.parse
  rw [parseFragment_empty h]
  dsimp only
  rw [append_graft (κ := κ) nodes]

/-- **A document made from markup holds the parsed forest** under its root. -/
theorem exists_parse_eq_ok {source : String} {nodes : Nodes}
    (h : Markup.parse source.toList = ⟨nodes, none, none⟩) :
    ∃ d : Document κ, Document.parse source = .ok d ∧ d.Coherent ∧
      d.contents (d.children root) = nodes := by
  have hcoherent := (coherent_empty (κ := κ)).parseFragment source
  rw [parseFragment_empty h] at hcoherent
  have happend := append_graft (κ := κ) nodes
  have hmoved := hcoherent.append happend
  have hroot : root < ((empty : Document κ).graft nodes).size := hcoherent.size_pos
  have hempty : ((empty : Document κ).graft nodes).children root = [] :=
    children_plant ((empty : Document κ).push .fragment) 1 (nodes.map Seed.plain)
      (Nat.zero_lt_succ 1)
  have hstanding : ((empty : Document κ).graft nodes).Standing (some 1) 2 (nodes.map Seed.plain) :=
    standing_plant ((empty : Document κ).push .fragment) (Nat.lt_succ_self 1) (nodes.map Seed.plain)
  refine ⟨_, parse_eq_ok h, hmoved, ?_⟩
  · rw [children_moveChildren _ hroot, if_neg (by decide), if_pos rfl, hempty, List.nil_append,
      hmoved.contents_of_standing hstanding, map_content_plain]
    intro x hx _
    have hone : ¬ x = 1 := by omega
    have hzero : ¬ x = 0 := by omega
    refine ⟨(sameContent_moveChildren _ root 1 _).content x, ?_⟩
    rw [children_moveChildren _ hroot, if_neg hone, if_neg (show ¬ x = root from hzero),
      List.append_nil]

/-- **Every sound forest is held by a document**, under its root. -/
theorem contents_plant {f : Forest Content} (hf : f.Sound) :
    ((empty : Document κ).plant root (f.map Seed.plain)).contents
      (((empty : Document κ).plant root (f.map Seed.plain)).children root) = f := by
  have hroot : root < (empty : Document κ).size := Nat.zero_lt_one
  have hsound : ((f.map (Seed.plain (κ := κ))).map Seed.content).Sound := by
    rw [map_content_plain]
    exact hf
  have hcoherent := (coherent_empty (κ := κ)).plant hroot rfl hsound
  have hholds := hcoherent.contents_of_standing (standing_plant _ hroot _) fun _ _ _ => ⟨rfl, rfl⟩
  rw [map_content_plain] at hholds
  rw [children_plant _ _ _ hroot, if_pos rfl]
  exact hholds

/-! ## The round trip of documents -/

/-- **Serializing and parsing gives back a well-formed forest**: its markup parses to it, and the
markup of the children of any node that hold it makes a document that holds it under its root, up to
live values. -/
theorem parse_innerHtml {f : Forest Content} (hf : WellFormed f) :
    Markup.parse? (render false f) = .ok (f.map written) ∧
      ∀ (d : Document κ) (id : NodeId), id < d.size → holdsVerbatim (d.content id) = false →
        d.contents (d.children id) = f →
          ∃ (html : String) (e : Document κ), d.innerHtml id = .ok html ∧
            Document.parse html = .ok e ∧ e.Coherent ∧
              e.contents (e.children root) = f.map written := by
  refine ⟨?_, ?_⟩
  · unfold Markup.parse?
    rw [Markup.parse_render hf]
  · intro d id hid hverbatim hcontents
    obtain ⟨n, hn⟩ := d.exists_node hid
    have hhtml : d.innerHtml id = .ok (Markup.rendered false f) := by
      rw [content_of_getElem? hn] at hverbatim
      rw [children_of_getElem? hn] at hcontents
      unfold innerHtml
      rw [(d.node_eq_ok_iff).mpr hn]
      show Except.ok (Markup.rendered (holdsVerbatim n.content) (d.contents n.children)) = _
      rw [hverbatim, hcontents]
    have hparse : Markup.parse (Markup.rendered false f).toList = ⟨f.map written, none, none⟩ := by
      rw [Markup.toList_rendered, Markup.parse_render hf]
    obtain ⟨e, heq, hcoherent, hholds⟩ := exists_parse_eq_ok (κ := κ) hparse
    exact ⟨_, e, hhtml, heq, hcoherent, hholds⟩

/-- A page with every kind of element, and with texts that need references. -/
def samplePage : Forest Content :=
  .node (.element ⟨"p", [⟨"class", "a \"b\""⟩, ⟨"hidden", ""⟩], none⟩)
    (.node (.text "1 < 2 & so on") .nil (.node (.element ⟨"br", [], none⟩) .nil .nil))
    (.node (.comment " - -- ") .nil
      (.node (.element ⟨"script", [], none⟩) (.single (.text "a < b && c </ script"))
        (.node (.element ⟨"textarea", [], none⟩) (.single (.text "</textarea>")) .nil)))

/-- A document that holds the page. -/
def sampleDocument : Document Unit := (empty : Document Unit).plant root (samplePage.map Seed.plain)

theorem parse_innerHtml_sample :
    WellFormed samplePage ∧ Markup.parse? (render false samplePage) = .ok samplePage ∧
      ∃ (html : String) (e : Document Unit), sampleDocument.innerHtml root = .ok html ∧
        Document.parse html = .ok e ∧ e.contents (e.children root) = samplePage := by
  have hwell : WellFormed samplePage := by decide +kernel
  obtain ⟨hparse, hdocument⟩ := parse_innerHtml (κ := Unit) hwell
  have hsize : root < sampleDocument.size := by
    unfold sampleDocument
    rw [size_plant]
    exact Nat.lt_of_lt_of_le Nat.zero_lt_one (Nat.le_add_right _ _)
  obtain ⟨html, e, hhtml, heq, _, hholds⟩ :=
    hdocument sampleDocument root hsize rfl (contents_plant hwell.sound)
  exact ⟨hwell, hparse, html, e, hhtml, heq, hholds⟩

end BoundView.Dom.Document
