import BoundView.Proofs.Tree.Contents
import BoundView.Proofs.Tree.Extending

/-!
# Parsing leaves the nodes alone that were there

A parse makes its nodes in a fragment of its own, also when it stops at an error with elements open.
The document after it extends the one before. An edit that parses puts the nodes into their place
with its last step, and that step is taken only when nothing can refuse it any more: an edit that
fails has changed no node that was there, one that succeeds has changed the list that it was asked to
change and the parents of the nodes that were in it.

Main statement: `parses_beside`, for every document that operations reach, every node and every text.
-/

namespace BoundView.Markup

/-- Only a parse that fails leaves an element without a parent. -/
theorem orphan_of_error_eq_none {source : List Char} (h : (parse source).error = none) :
    (parse source).orphan = none :=
  congrArg Parsed.orphan (parse_eq_of_error h)

end BoundView.Markup

namespace BoundView.Dom.Document

open BoundView.Markup (Nodes Parsed)
open Relation (TransGen ReflTransGen)

variable {κ : Type} {d : Document κ}

/-- The nodes below a node are those that it lies above. -/
theorem Coherent.mem_descendants_iff (h : d.Coherent) {id x : NodeId} :
    x ∈ d.descendants id ↔ TransGen d.Link x id := by
  rw [h.descendants_eq_preorder, h.mem_subtrees_iff, TransGen.tail'_iff]
  constructor
  · rintro ⟨c, hc, hxc⟩
    exact ⟨c, hxc, (h.mem_children id c).mp hc⟩
  · rintro ⟨c, hxc, hc⟩
    exact ⟨c, (h.mem_children id c).mpr hc, hxc⟩

/-! ## What a parse makes -/

section Graft

variable (d : Document κ) (nodes : Nodes)

/-- Making nodes without listeners uses up no identifier. -/
theorem nextListener_foldl_pushPlaced (ps : List (Forest.Placed (Seed κ)))
    (h : ∀ p ∈ ps, p.label.listeners = []) :
    (ps.foldl pushPlaced d).nextListener = d.nextListener := by
  induction ps generalizing d with
  | nil => rfl
  | cons p ps ih =>
    rw [List.foldl_cons, ih _ fun q hq => h q (List.mem_cons_of_mem _ hq)]
    simp [pushPlaced, h p List.mem_cons_self]

theorem nextListener_graft : (d.graft nodes).nextListener = d.nextListener := by
  have hlabels : ∀ p ∈ (nodes.map (Seed.plain (κ := κ))).layout (some d.size) (d.size + 1),
      p.label.listeners = [] := by
    intro p hp
    have hlabel := List.mem_map_of_mem (f := Forest.Placed.label) hp
    rw [Forest.map_label_layout, Forest.preorder_map] at hlabel
    obtain ⟨c, _, hc⟩ := List.mem_map.mp hlabel
    rw [← hc]
    rfl
  unfold graft plant
  rw [size_push]
  exact (d.push .fragment).nextListener_foldl_pushPlaced _ hlabels

/-- Every node of a grafted forest lies below its fragment. -/
theorem transGen_graft {x : Nat} (h1 : d.size < x) (h2 : x < (d.graft nodes).size) :
    TransGen (d.graft nodes).Link x d.size := by
  have hstanding := d.standing_plant_fragment (nodes.map Seed.plain)
  have hsize := d.size_plant_fragment (nodes.map Seed.plain)
  induction x using Nat.strong_induction_on with
  | _ x ih =>
    rcases hstanding.mem_tops_or_link h1 (hsize ▸ h2) with htop | ⟨q, hq, hqx, hlink, _⟩
    · exact .single (hstanding.parent?_of_mem_tops htop)
    · exact .head hlink (ih q hqx hq (Nat.lt_trans hqx h2))

/-- What a parse builds, whether the parse succeeds or not, extends the document. -/
theorem extends_build (parsed : Parsed) : Extends d (d.build parsed) := by
  have hgraft : Extends d (d.graft parsed.nodes) := d.extends_plant _
  unfold build
  cases parsed.orphan with
  | none => exact hgraft
  | some element => exact hgraft.push _

/-- **A parse extends the document**, and uses up no identifier of a listener. -/
theorem extends_parseFragment (source : String) : Extends d (d.parseFragment source).2 :=
  d.extends_build _

theorem nextListener_parseFragment (source : String) :
    (d.parseFragment source).2.nextListener = d.nextListener := by
  have hgraft := d.nextListener_graft (Markup.parse source.toList).nodes
  simp only [parseFragment, build]
  cases (Markup.parse source.toList).orphan <;> exact hgraft

/-- **A parse that succeeds** has made a fragment and the parsed nodes in it. -/
theorem parseFragment_eq_ok {source : String} {fragment : NodeId} {e : Document κ}
    (h : d.parseFragment source = (.ok fragment, e)) :
    fragment = d.size ∧ e = d.graft (Markup.parse source.toList).nodes := by
  unfold parseFragment at h
  cases herror : (Markup.parse source.toList).error with
  | some error =>
    simp [herror] at h
  | none =>
    simp only [herror, Prod.mk.injEq, Except.ok.injEq] at h
    refine ⟨h.1.symm, ?_⟩
    rw [← h.2, build, Markup.orphan_of_error_eq_none herror]

end Graft

/-! ## Edits that parse -/

/-- **The answer to an edit that parses** for a node: a parse error, a fault when the node can not
have children, or success. -/
def verdict (d : Document κ) (id : NodeId) (source : String) : MarkupResult :=
  match (d.parseFragment source).1 with
  | .error e => .ok (.error e)
  | .ok _ => if (d.content id).isContainer then .ok (.ok ()) else .error (.notContainer id)

/-- **What parsing for a node does beside the nodes that were there, and to them.** -/
structure ParsesBeside (d : Document κ) (source : String) (id : NodeId) : Prop where
  /-- A parse adds nodes behind those that were there and links none of the new ones to them. -/
  parsed : Extends d (d.parseFragment source).2
  /-- A parse uses up no identifier of a listener. -/
  identifiers : (d.parseFragment source).2.nextListener = d.nextListener
  /-- When a parse succeeds, its answer is new and every new node is the answer or lies below it. -/
  below : ∀ fragment, (d.parseFragment source).1 = .ok fragment → d.size ≤ fragment ∧
    ∀ x, d.size ≤ x → x < (d.parseFragment source).2.size →
      x = fragment ∨ x ∈ (d.parseFragment source).2.descendants fragment
  /-- Both edits answer the same. -/
  answers : (d.setInnerHtml id source).1 = d.verdict id source ∧
    (d.appendMarkup id source).1 = d.verdict id source
  /-- An edit that fails does nothing to the nodes that were there. -/
  refused : d.verdict id source ≠ .ok (.ok ()) →
    Extends d (d.setInnerHtml id source).2 ∧ Extends d (d.appendMarkup id source).2
  /-- When the nodes were put in the place of others, the list of the node holds the tops of the new
  fragment, its former members have no parent, and nothing else has changed. -/
  replaced : d.verdict id source = .ok (.ok ()) →
    ∀ x, x < d.size → (d.setInnerHtml id source).2.nodes[x]? =
      (d.nodes[x]?).map fun n =>
        { n with
          parent := if x ∈ d.children id then none else n.parent
          children := if x = id then (d.parseFragment source).2.children d.size else n.children }
  /-- The trees in the list are the parsed ones, in order. -/
  holds : d.verdict id source = .ok (.ok ()) →
    (d.setInnerHtml id source).2.contents ((d.setInnerHtml id source).2.children id) =
      (Markup.parse source.toList).nodes
  /-- When the nodes were appended, only the list of the node has changed. -/
  appended : d.verdict id source = .ok (.ok ()) →
    ∀ x, x < d.size → (d.appendMarkup id source).2.nodes[x]? =
      (d.nodes[x]?).map fun n =>
        { n with
          children :=
            if x = id then n.children ++ (d.parseFragment source).2.children d.size
            else n.children }

section Edits

variable {source : String} {id : Nat} {error : Markup.Error} {e cleared : Document κ}

/-- What is known of the document after a parse that has succeeded. -/
theorem Coherent.graft (h : d.Coherent) (hparse : d.parseFragment source = (.ok d.size, e)) :
    e.Coherent ∧ Extends d e ∧ d.size < e.size ∧ e.content d.size = .fragment ∧
      e.Standing (some d.size) (d.size + 1)
        ((Markup.parse source.toList).nodes.map Seed.plain) ∧
      e.children d.size =
        ((Markup.parse source.toList).nodes.map (Seed.plain (κ := κ))).tops (d.size + 1) := by
  have hcoherent := h.parseFragment source
  have hextends := d.extends_parseFragment source
  rw [hparse] at hcoherent hextends
  obtain ⟨-, rfl⟩ := d.parseFragment_eq_ok hparse
  have hslot := d.getElem?_plant_fragment
    ((Markup.parse source.toList).nodes.map (Seed.plain (κ := κ)))
  exact ⟨hcoherent, hextends, lt_size_of_getElem? _ hslot, content_of_getElem? hslot,
    d.standing_plant_fragment _, children_of_getElem? hslot⟩

/-- **All new nodes are the answer of a parse or lie below it.** -/
theorem Coherent.below_of_parse (h : d.Coherent) {fragment : NodeId}
    (hfragment : (d.parseFragment source).1 = .ok fragment) : d.size ≤ fragment ∧
      ∀ x, d.size ≤ x → x < (d.parseFragment source).2.size →
        x = fragment ∨ x ∈ (d.parseFragment source).2.descendants fragment := by
  obtain ⟨rfl, hbuilt⟩ := d.parseFragment_eq_ok (Prod.ext hfragment rfl)
  have hgraft : (d.parseFragment source).2 = d.graft (Markup.parse source.toList).nodes := hbuilt
  refine ⟨Nat.le_refl _, fun x h1 h2 => ?_⟩
  rcases Nat.eq_or_lt_of_le h1 with heq | hgt
  · exact .inl heq.symm
  · right
    rw [(h.parseFragment source).mem_descendants_iff, hgraft]
    exact d.transGen_graft _ hgt (Nat.lt_of_lt_of_eq h2 (congrArg size hgraft))

/-- The three outcomes of a parse for a node. -/
theorem parse_cases (d : Document κ) (id : NodeId) (source : String) :
    (∃ error e, d.parseFragment source = (.error error, e) ∧
      d.verdict id source = .ok (.error error)) ∨
    (∃ e, d.parseFragment source = (.ok d.size, e) ∧ (d.content id).isContainer = false ∧
      d.verdict id source = .error (.notContainer id)) ∨
    (∃ e, d.parseFragment source = (.ok d.size, e) ∧ (d.content id).isContainer = true ∧
      d.verdict id source = .ok (.ok ())) := by
  unfold verdict
  cases hparse : d.parseFragment source with
  | mk result e =>
    cases result with
    | error error => exact .inl ⟨error, e, rfl, rfl⟩
    | ok fragment =>
      obtain ⟨rfl, _⟩ := d.parseFragment_eq_ok hparse
      by_cases hcontainer : (d.content id).isContainer = true
      · exact .inr (.inr ⟨e, rfl, hcontainer, if_pos hcontainer⟩)
      · exact .inr (.inl ⟨e, rfl, by simpa using hcontainer, if_neg hcontainer⟩)

/-- A parse that fails ends both edits. -/
theorem edits_of_error (id : NodeId) (hparse : d.parseFragment source = (.error error, e)) :
    d.setInnerHtml id source = (.ok (.error error), e) ∧
      d.appendMarkup id source = (.ok (.error error), e) := by
  unfold setInnerHtml appendMarkup
  rw [hparse]
  exact ⟨rfl, rfl⟩

/-- Nothing is appended to a node that can not have children. -/
theorem append_notContainer {child : NodeId} (hid : id < d.size)
    (hcontainer : (d.content id).isContainer = false) :
    d.append id child = .error (.notContainer id) := by
  obtain ⟨n, hn⟩ := d.exists_node hid
  rw [content_of_getElem? hn] at hcontainer
  unfold append
  rw [(d.node_eq_ok_iff).mpr hn]
  simp [hcontainer]

/-- **Both edits on a node that can not have children** are refused after the parse. -/
theorem Coherent.edits_of_notContainer (h : d.Coherent) (hid : id < d.size)
    (hparse : d.parseFragment source = (.ok d.size, e))
    (hcontainer : (d.content id).isContainer = false) :
    ∃ cleared, Extends d cleared ∧
      d.setInnerHtml id source = (.error (.notContainer id), cleared) ∧
        d.appendMarkup id source = (.error (.notContainer id), e) := by
  obtain ⟨_, hextends, _⟩ := h.graft hparse
  have hid' : id < e.size := Nat.lt_of_lt_of_le hid hextends.size_le
  have hcontainer' : (e.content id).isContainer = false := by rw [hextends.content_eq hid, hcontainer]
  obtain ⟨cleared, hclear⟩ := hextends.exists_clear hid
  have same := e.sameContent_clear hclear
  have hnone : d.children id = [] := by
    by_contra hne
    rw [h.container id hne] at hcontainer
    cases hcontainer
  refine ⟨cleared, hextends.clear_childless h hid hnone hclear, ?_, ?_⟩
  · have happend : cleared.append id d.size = .error (.notContainer id) := by
      apply append_notContainer
      · rw [same.size]
        exact hid'
      · rw [same.content]
        exact hcontainer'
    unfold Document.setInnerHtml
    simp only [hparse, hclear, happend]
  · unfold Document.appendMarkup
    simp only [hparse, e.append_notContainer hid' hcontainer']

/-- **Both edits on a node that can have children** put the parsed nodes there. -/
theorem Coherent.edits_of_container (h : d.Coherent) (hid : id < d.size)
    (hparse : d.parseFragment source = (.ok d.size, e))
    (hcontainer : (d.content id).isContainer = true) :
    ∃ cleared, e.clear id = .ok cleared ∧
      d.setInnerHtml id source =
        (.ok (.ok ()), cleared.moveChildren id d.size (cleared.children d.size)) ∧
      d.appendMarkup id source =
        (.ok (.ok ()), e.moveChildren id d.size (e.children d.size)) := by
  obtain ⟨_, hextends, hfragment, hcontent, _⟩ := h.graft hparse
  obtain ⟨cleared, hclear⟩ := hextends.exists_clear hid
  have hreplace := hextends.append_eq_ok h (e.sameContent_clear hclear)
    (hextends.parent?_of_clear h hid hclear) hid hcontainer (Nat.le_refl _) hfragment hcontent
  have happend := hextends.append_eq_ok h (.refl e) (fun _ _ hp => hp) hid hcontainer
    (Nat.le_refl _) hfragment hcontent
  refine ⟨cleared, hclear, ?_, ?_⟩
  · unfold Document.setInnerHtml
    simp only [hparse, hclear, hreplace]
  · unfold Document.appendMarkup
    simp only [hparse, happend]

/-- The node then holds the parsed trees. -/
theorem Coherent.contents_replaced (h : d.Coherent) (hid : id < d.size)
    (hparse : d.parseFragment source = (.ok d.size, e)) (hclear : e.clear id = .ok cleared)
    (hmoved : (cleared.moveChildren id d.size (cleared.children d.size)).Coherent) :
    (cleared.moveChildren id d.size (cleared.children d.size)).contents
        ((cleared.moveChildren id d.size (cleared.children d.size)).children id) =
      (Markup.parse source.toList).nodes := by
  obtain ⟨_, hextends, hfragment, _, hstanding, htops⟩ := h.graft hparse
  have hne : id ≠ d.size := Nat.ne_of_lt hid
  have hslot := fun x => getElem?_replaced hne hclear x
  generalize cleared.moveChildren id d.size (cleared.children d.size) = final at hmoved hslot ⊢
  have hchildren : final.children id = e.children d.size := by
    obtain ⟨n, hn⟩ := e.exists_node (Nat.lt_trans hid hfragment)
    have hid := hslot id
    rw [hn] at hid
    rw [children_of_getElem? hid]
    exact if_pos rfl
  rw [hchildren, htops, hmoved.contents_of_standing hstanding, map_content_plain]
  intro x hx _
  have hx1 : x ≠ id := by omega
  have hx2 : x ≠ d.size := by omega
  unfold content children
  rw [hslot x]
  cases e.nodes[x]? with
  | none => exact ⟨rfl, rfl⟩
  | some n => simp [hx1, hx2]

end Edits

/-- **Parsing for a node of a coherent document** leaves the other nodes alone. -/
theorem Coherent.parsesBeside (h : d.Coherent) (source : String) {id : Nat} (hid : id < d.size) :
    ParsesBeside d source id := by
  have hextends := d.extends_parseFragment source
  have hidentifiers := d.nextListener_parseFragment source
  rcases d.parse_cases id source with ⟨error, e, hparse, hverdict⟩ |
      ⟨e, hparse, hcontainer, hverdict⟩ | ⟨e, hparse, hcontainer, hverdict⟩
  · obtain ⟨hset, happend⟩ := edits_of_error id hparse
    have he : Extends d e := by rwa [hparse] at hextends
    refine ⟨hextends, hidentifiers, fun _ => h.below_of_parse, ?_, ?_, ?_, ?_, ?_⟩
    · rw [hset, happend, hverdict]
      exact ⟨rfl, rfl⟩
    · intro _
      rw [hset, happend]
      exact ⟨he, he⟩
    all_goals
      rw [hverdict]
      intro hok
      cases hok
  · obtain ⟨cleared, hcleared, hset, happend⟩ := h.edits_of_notContainer hid hparse hcontainer
    have he : Extends d e := by rwa [hparse] at hextends
    refine ⟨hextends, hidentifiers, fun _ => h.below_of_parse, ?_, ?_, ?_, ?_, ?_⟩
    · rw [hset, happend, hverdict]
      exact ⟨rfl, rfl⟩
    · intro _
      rw [hset, happend]
      exact ⟨hcleared, he⟩
    all_goals
      rw [hverdict]
      intro hok
      cases hok
  · obtain ⟨cleared, hclear, hset, happend⟩ := h.edits_of_container hid hparse hcontainer
    have hmoved := h.setInnerHtml id source
    rw [hset] at hmoved
    have he : Extends d e := by rwa [hparse] at hextends
    refine ⟨hextends, hidentifiers, fun _ => h.below_of_parse, ?_, ?_, ?_, ?_, ?_⟩
    · rw [hset, happend, hverdict]
      exact ⟨rfl, rfl⟩
    · intro hne
      exact absurd hverdict hne
    · intro _ x hx
      rw [hset, hparse]
      exact he.getElem?_replaced hid (Nat.le_refl _) hclear hx
    · intro _
      rw [hset]
      exact h.contents_replaced hid hparse hclear hmoved
    · intro _ x hx
      rw [happend, hparse]
      exact he.getElem?_appended (Nat.le_refl _) hx

/-- **Parsing never disturbs the nodes that were there**: in every document that operations reach, for
every node and every text, the parse extends the document, an edit that fails leaves every node as it
was, and one that succeeds changes one list of children and the parents of its former members. -/
theorem parses_beside (ops : List (Operation κ)) (source : String) {id : Nat}
    (hid : id < (reached ops : Document κ).size) :
    ParsesBeside (reached ops : Document κ) source id :=
  (coherent_reached ops).parsesBeside source hid

/-- A list with one entry, under the root. -/
def sampleEdits : List (Operation Unit) :=
  [.createElement "ul", .append root 1, .createElement "li", .append 1 2]

/-- New entries for the list, with an element that is left open, in the place of the first. -/
theorem parses_beside_list :
    1 < (reached sampleEdits : Document Unit).size ∧
      ParsesBeside (reached sampleEdits) "<li>a</li><li>b" 1 :=
  have hlist : 1 < (reached sampleEdits : Document Unit).size := by decide +kernel
  ⟨hlist, parses_beside sampleEdits "<li>a</li><li>b" hlist⟩

end BoundView.Dom.Document
