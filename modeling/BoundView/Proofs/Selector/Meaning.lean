import BoundView.Proofs.Tree.Parsing
import BoundView.Selector.Match
import Mathlib.Data.List.TakeWhile

/-!
# What selectors mean

A selector **means** a node when its words can be assigned to nodes from above down to this one, each
node lying somewhere above the next and satisfying its word. The matcher does not try all assignments:
going up from the node it gives each word to the first node that satisfies it, and never takes a word
back. No match is lost by that. A word that another assignment gives to a node higher up can as well
be given to the first node, since all that has to be found after it lies above both.

Queries list the nodes below the document node that are meant, in preorder; looking for an identifier
is the query for the selector that asks for it.

Main statements: `climbs_iff`, `holdsAt_iff`, `selectors_mean`.
-/

namespace BoundView

open BoundView.Dom (Content Document NodeId)
open Relation (TransGen)

namespace Dom.Document

variable {κ : Type} {d : Document κ}

/-- The list of the nodes above a node ends with each of them and those that are above it. -/
theorem Coherent.suffix_ancestors (h : d.Coherent) {id a : NodeId} (ha : TransGen d.Link id a) :
    (a :: d.ancestors a) <:+ d.ancestors id := by
  induction ha using TransGen.head_induction_on with
  | single hp =>
    rw [h.ancestors_of_link hp]
  | head hp _ ih =>
    rw [h.ancestors_of_link hp]
    exact ih.trans (List.suffix_cons _ _)

/-- **A selection of the nodes above a node** goes upward step by step, and whatever goes upward from
the node is one. -/
theorem Coherent.sublist_ancestors_iff (h : d.Coherent) {id : NodeId} {line : List NodeId} :
    line.Sublist (d.ancestors id) ↔ (id :: line).IsChain (TransGen d.Link) := by
  constructor
  · intro hline
    have hall : (id :: d.ancestors id).IsChain (TransGen d.Link) :=
      (isChain_climb d.size id).imp fun _ _ => TransGen.single
    exact hall.sublist (hline.cons_cons id)
  · intro hchain
    induction line generalizing id with
    | nil => exact List.nil_sublist _
    | cons a line ih =>
      obtain ⟨ha, hrest⟩ := List.isChain_cons_cons.mp hchain
      exact ((ih hrest).cons_cons a).trans (h.suffix_ancestors ha).sublist

end Dom.Document

namespace Selector

/-! ## Taking the first node that matches -/

/-- **The matcher finds an assignment if there is one**: the words are met in their order by some of the
contents, and the first content that satisfies a word may always be the one. -/
theorem climbs_iff {compounds : List Compound} {above : List Content} :
    climbs compounds above = true ↔
      ∃ line : List Content, line.Sublist above ∧
        List.Forall₂ (fun compound content => compound.matchesContent content = true) compounds line := by
  induction above generalizing compounds with
  | nil =>
    cases compounds with
    | nil => exact iff_of_true rfl ⟨[], List.Sublist.slnil, .nil⟩
    | cons compound compounds =>
      refine iff_of_false Bool.false_ne_true ?_
      rintro ⟨line, hline, hmatch⟩
      rw [List.sublist_nil.mp hline] at hmatch
      cases hmatch
  | cons content above ih =>
    cases compounds with
    | nil => exact iff_of_true rfl ⟨[], List.nil_sublist _, .nil⟩
    | cons compound compounds =>
      unfold climbs
      by_cases hfirst : compound.matchesContent content = true
      · rw [if_pos hfirst, ih]
        constructor
        · rintro ⟨line, hline, hmatch⟩
          exact ⟨content :: line, hline.cons_cons content, .cons hfirst hmatch⟩
        · rintro ⟨line, hline, hmatch⟩
          -- Wherever the assignment puts the first word, the others are met above it.
          cases hmatch with
          | cons _ hmatch => exact ⟨_, hline.tail, hmatch⟩
      · rw [if_neg hfirst, ih]
        constructor
        · rintro ⟨line, hline, hmatch⟩
          exact ⟨line, hline.cons content, hmatch⟩
        · rintro ⟨line, hline, hmatch⟩
          cases hline with
          | cons _ hline => exact ⟨line, hline, hmatch⟩
          | cons_cons _ hline =>
            cases hmatch with
            | cons hcontent _ => exact absurd hcontent hfirst

/-! ## The meaning of a selector -/

section

variable {κ : Type}

/-- **What a selector means**: its words belong to nodes, one above the other down to the given node,
and each node satisfies its word. -/
def Means (d : Document κ) (selector : Selector) (id : NodeId) : Prop :=
  ∃ line : List NodeId,
    List.Forall₂ (fun compound node => compound.matchesContent (d.content node) = true)
      selector.compounds line ∧
    line.getLast? = some id ∧ line.IsChain fun outer inner => TransGen d.Link inner outer

/-- The words from the last to the first, and the nodes from the inside out. -/
theorem means_iff_reverse {d : Document κ} {selector : Selector} {id : NodeId} :
    selector.Means d id ↔
      ∃ line : List NodeId,
        List.Forall₂ (fun compound node => compound.matchesContent (d.content node) = true)
          selector.compounds.reverse (id :: line) ∧
        (id :: line).IsChain (TransGen d.Link) := by
  constructor
  · rintro ⟨line, hmatch, hlast, hchain⟩
    obtain ⟨front, rfl⟩ := List.getLast?_eq_some_iff.mp hlast
    refine ⟨front.reverse, ?_, ?_⟩
    · have hreverse := List.forall₂_reverse_iff.mpr hmatch
      rwa [List.reverse_append] at hreverse
    · have hreverse := List.isChain_reverse.mpr hchain
      rwa [List.reverse_append] at hreverse
  · rintro ⟨line, hmatch, hchain⟩
    refine ⟨(id :: line).reverse, ?_, ?_, ?_⟩
    · rw [← List.forall₂_reverse_iff, List.reverse_reverse]
      exact hmatch
    · rw [List.reverse_cons, List.getLast?_concat]
    · exact List.isChain_reverse.mpr hchain

variable {d : Document κ} (h : d.Coherent)
include h

/-- **Matching decides what a selector means.** -/
theorem holdsAt_iff {selector : Selector} {id : NodeId} :
    selector.holdsAt d id = true ↔ selector.Means d id := by
  rw [means_iff_reverse]
  unfold holdsAt matchesAt
  cases selector.compounds.reverse with
  | nil =>
    refine iff_of_false Bool.false_ne_true ?_
    rintro ⟨line, hmatch, -⟩
    cases hmatch
  | cons last others =>
    rw [Bool.and_eq_true, climbs_iff]
    constructor
    · rintro ⟨hlast, contents, hcontents, hmatch⟩
      obtain ⟨line, hline, rfl⟩ := List.sublist_map_iff.mp hcontents
      exact ⟨line, .cons hlast (List.forall₂_map_right_iff.mp hmatch),
        h.sublist_ancestors_iff.mp hline⟩
    · rintro ⟨line, hmatch, hchain⟩
      cases hmatch with
      | cons hlast hmatch =>
        exact ⟨hlast, line.map d.content, (h.sublist_ancestors_iff.mpr hchain).map d.content,
          List.forall₂_map_right_iff.mpr hmatch⟩

end

/-! ## Looking for an identifier -/

/-- The selector that asks for an identifier and for nothing else. -/
def ofId (id : String) : Selector := ⟨[⟨none, some id, []⟩]⟩

theorem byId_eq_query {κ : Type} (d : Document κ) (id : String) : byId d id = (ofId id).query d := by
  have hmatch : ∀ content : Content, (⟨none, some id, []⟩ : Compound).matchesContent content =
      (content.attributes.get? "id" == some id) := by
    intro content
    cases content with
    | element e => simp [Compound.matchesContent, Content.attributes]
    | _ => rfl
  unfold byId query holdsAt matchesAt ofId
  simp only [List.reverse_singleton, climbs, Bool.and_true, hmatch]

/-- The code points of the blanks. -/
def blankCodes : List Nat :=
  List.range' 0x9 5 ++ [0x20, 0x85, 0xA0, 0x1680] ++ List.range' 0x2000 11 ++
    [0x2028, 0x2029, 0x202F, 0x205F, 0x3000]

theorem mem_blankCodes {c : Char} (hc : Text.isBlank c = true) : c.toNat ∈ blankCodes := by
  simp only [Text.isBlank, Bool.or_eq_true, Bool.and_eq_true, decide_eq_true_eq, beq_iff_eq] at hc
  simp only [blankCodes, List.mem_append, List.mem_range'_1, List.mem_cons, List.not_mem_nil, or_false]
  omega

/-- **A name has no blank in it**: blanks are neither letters nor numbers. -/
theorem not_blank_of_isNameChar {c : Char} (hc : isNameChar c = true) : Text.isBlank c = false := by
  rw [← Bool.not_eq_true]
  intro hblank
  have hcode := mem_blankCodes hblank
  simp only [isNameChar, Bool.or_eq_true, beq_iff_eq] at hc
  rcases hc with (halpha | rfl) | rfl
  · have hall : ∀ n ∈ blankCodes, (Text.alphanumericEdges.takeWhile (· ≤ n)).length % 2 = 0 := by
      decide +kernel
    rw [Text.isAlphanumeric, Text.inClass, hall _ hcode] at halpha
    cases halpha
  · cases hblank
  · cases hblank

/-- A text without blanks is one word. -/
theorem words_of_not_blank {cs : List Char} (hne : cs ≠ []) (h : ∀ c ∈ cs, Text.isBlank c = false) :
    Text.words cs = [cs] := by
  have hfrom : ∀ cs : List Char, (∀ c ∈ cs, Text.isBlank c = false) → Text.wordsFrom cs = (cs, []) := by
    intro cs h
    induction cs with
    | nil => rfl
    | cons c cs ih =>
      rw [Text.wordsFrom, ih fun c hc => h c (List.mem_cons_of_mem _ hc), h c List.mem_cons_self]
      rfl
  rw [Text.words, hfrom cs h]
  simp [hne]

theorem parse_hash {id : String} (hne : id ≠ "") (h : ∀ c ∈ id.toList, isNameChar c = true) :
    parse ("#" ++ id) = .ok (ofId id) := by
  have hblank : ∀ c ∈ '#' :: id.toList, Text.isBlank c = false := by
    intro c hc
    rcases List.mem_cons.mp hc with rfl | hc
    · rfl
    · exact not_blank_of_isNameChar (h c hc)
  have htext : ("#" ++ id).toList = '#' :: id.toList := String.toList_append
  have hid : id.toList ≠ [] := mt String.toList_eq_nil_iff.mp hne
  have htag : ¬ isTagChar '#' = true := by decide +kernel
  have htake : id.toList.takeWhile isNameChar = id.toList := List.takeWhile_eq_self_iff.mpr h
  have hdrop : id.toList.dropWhile isNameChar = [] := List.dropWhile_eq_nil_iff.mpr h
  have hword : parseWord ("#" ++ id) ('#' :: id.toList) = .ok ⟨none, some id, []⟩ := by
    unfold parseWord
    rw [List.takeWhile_cons_of_neg htag, List.dropWhile_cons_of_neg htag, parseParts]
    simp [htake, hdrop, hid, tagOf, Compound.addPart, parseParts]
  unfold parse
  rw [htext, words_of_not_blank (List.cons_ne_nil _ _) hblank, parseWords, hword]
  rfl

/-! ## Matching and queries -/

/-- **Selectors mean what their words say.** In a coherent document, and so in every document that
operations reach, a node matches just if the selector means it. A query lists the nodes below the
document node that are meant, each once and in preorder, and the query for one node is the first of
them. What has a given identifier is what the selector for this identifier finds. -/
theorem selectors_mean {κ : Type} {d : Document κ} (h : d.Coherent) :
    (∀ (selector : Selector) (id : NodeId), id < d.size →
      ∃ answer, selector.matchesNode d id = .ok answer ∧ (answer = true ↔ selector.Means d id)) ∧
    (∀ selector : Selector,
      (∀ id, id ∈ selector.queryAll d ↔
        TransGen d.Link id Document.root ∧ selector.Means d id) ∧
      (selector.queryAll d).Nodup ∧
      (selector.queryAll d).Sublist (d.subtrees (d.children Document.root)).preorder ∧
      selector.query d = (selector.queryAll d).head?) ∧
    ∀ id : String, id ≠ "" → (∀ c ∈ id.toList, isNameChar c = true) →
      ∃ selector, parse ("#" ++ id) = .ok selector ∧ byId d id = selector.query d := by
  refine ⟨fun selector id hid => ?_, fun selector => ⟨fun id => ?_, ?_, ?_, ?_⟩, fun id hne hname => ?_⟩
  · obtain ⟨n, hn⟩ := d.exists_node hid
    refine ⟨selector.holdsAt d id, ?_, holdsAt_iff h⟩
    unfold matchesNode
    rw [d.node_eq_ok_iff.mpr hn]
    rfl
  · rw [queryAll, List.mem_filter, h.mem_descendants_iff, holdsAt_iff h]
  · rw [queryAll, h.descendants_eq_preorder]
    exact (h.nodup_subtrees (h.pairwise_children _)).filter _
  · rw [queryAll, h.descendants_eq_preorder]
    exact List.filter_sublist
  · exact (List.head?_filter ..).symm
  · exact ⟨ofId id, parse_hash hne hname, byId_eq_query d id⟩

/-- A page in which an element of a kind stands in others of this kind. -/
def nestedPage : Document Unit := Document.reached
  [.appendMarkup Document.root "<div><div id=a><div><p class='x y'>1</p></div></div></div>"]

theorem selectors_mean_sample :
    let selector : Selector := ⟨[⟨some "div", none, []⟩, ⟨none, some "a", []⟩, ⟨none, none, ["y"]⟩]⟩
    parse "DIV #a .y" = .ok selector ∧ selector.Means nestedPage 5 ∧ selector.queryAll nestedPage = [5] ∧
      (selector.queryAll nestedPage).Nodup ∧
      (∃ s, parse "#a" = .ok s ∧ byId nestedPage "a" = s.query nestedPage) ∧
      byId nestedPage "a" = some 3 := by
  intro selector
  obtain ⟨hmatches, hqueries, hids⟩ := selectors_mean (d := nestedPage) (Document.coherent_reached _)
  obtain ⟨answer, hanswer, hmeans⟩ := hmatches selector 5 (by decide +kernel)
  refine ⟨by decide +kernel, hmeans.mp ?_, by decide +kernel, (hqueries selector).2.1, ?_, by decide +kernel⟩
  · have hheld : selector.matchesNode nestedPage 5 = .ok true := by decide +kernel
    exact Except.ok.inj (hanswer.symm.trans hheld)
  · refine hids "a" (by decide) fun c hc => ?_
    obtain rfl : c = 'a' := by simpa using hc
    decide

end Selector

end BoundView
