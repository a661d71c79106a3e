import BoundView.Proofs.Rendering.Mounting
import BoundView.Proofs.Tree.Growing

/-!
# Templates keep their nodes

A template is **housed** by a document when its handles are different nodes of the document, a text
behind the handle of a text and an element behind that of an element. Rendering houses a template in
nodes of its own, also where it fails half-way, and a document that grows houses it still, however its
nodes are moved, emptied or written to.

A patch of a housed template does not fail, and a key **touches** only the nodes that depend on it:
a text with a marker for the key gets the text that it derives now, an element that is bound to the key
gets the new live value where bound inputs follow writes, and everything else stays as it was.

Main statements: `housed_mount`, `Housed.touches`.
-/

namespace BoundView

open BoundView.Dom (Content Document NodeId)
open BoundView.Dom.Document (Grows SameLinks SameListeners)
open BoundView.Interpolation (Lookup MissingKey resolvedText)

variable {κ : Type} {d e : Document κ}

/-- The kind of the nodes that a part is rendered as. -/
def Part.kind : Part → Nat
  | element .. => 1
  | text .. => 3
  | comment _ => 8

theorem Part.kind_derived (lookup : Lookup) (missing : MissingKey) (p : Part) :
    (p.derived lookup missing).kind = p.kind := by
  cases p <;> rfl

theorem Part.isRendered_of_rendered {p : Part} {node : NodeId} (h : p.rendered = some node) :
    p.isRendered = true := by
  cases p with
  | comment raw => cases h
  | text raw rendered => rfl
  | element tag attributes rendered => rfl

theorem eq_text_of_kind {c : Content} (h : c.kind = 3) : ∃ data, c = .text data := by
  cases c with
  | text data => exact ⟨data, rfl⟩
  | element _ | comment _ | document | fragment => cases h

theorem eq_element_of_kind {c : Content} (h : c.kind = 1) : ∃ e, c = .element e := by
  cases c with
  | element e => exact ⟨e, rfl⟩
  | text _ | comment _ | document | fragment => cases h

namespace Template

/-- **A template whose nodes a document keeps.** -/
structure Housed (t : Template) (d : Document κ) : Prop where
  nodup : t.handles.Nodup
  seated : ∀ p ∈ t.preorder, ∀ node, p.rendered = some node →
    node < d.size ∧ (d.content node).kind = p.kind

/-- **A document that grows keeps the nodes of a template.** -/
theorem Housed.grows {t : Template} (h : t.Housed d) (hgrows : Grows d e) : t.Housed e where
  nodup := h.nodup
  seated p hp node hnode := by
    obtain ⟨hlt, hkind⟩ := h.seated p hp node hnode
    exact ⟨hgrows.lt_size hlt, (hgrows.kind node hlt).trans hkind⟩

theorem Housed.lt_of_mem_handles {t : Template} (h : t.Housed d) {node : NodeId}
    (hnode : node ∈ t.handles) : node < d.size := by
  obtain ⟨p, hp, hrendered⟩ := mem_handles.mp hnode
  exact (h.seated p hp node hrendered).1

/-! ## Rendering -/

section

variable (context : RenderContext κ) (d : Document κ) (root : NodeId) (t : Template)

theorem template_mount : (t.mount context d root).template = t.place (d.size + 1) := by
  unfold mount
  dsimp only
  rw [materialize_push]
  dsimp only
  cases (planted context d t).clear root with
  | error f => rfl
  | ok cleared =>
    dsimp only
    cases cleared.append root d.size <;> rfl

theorem grows_planted_mount : Grows (planted context d t) (t.mount context d root).document := by
  have h := Grows.refl (planted context d t)
  rcases mount_cases context d root t with hplanted | ⟨cleared, hclear, hcleared | happend⟩
  · rw [hplanted]
    exact h
  · rw [hcleared]
    exact h.clear hclear
  · exact (h.clear hclear).append happend

theorem grows_mount : Grows d (t.mount context d root).document :=
  ((Grows.push d .fragment).trans (.plant _ _ _)).trans (grows_planted_mount context d root t)

/-- **Rendering houses a template**, whether it fails or not. -/
theorem housed_mount (hbare : t.Bare) :
    (t.mount context d root).template.Housed (t.mount context d root).document := by
  rw [template_mount]
  refine Housed.grows (d := planted context d t) ⟨nodup_handles_place hbare _, ?_⟩
    (grows_planted_mount context d root t)
  intro p hp node hnode
  obtain ⟨other, seed, first, above, below, hother, hseed, hthere⟩ :=
    exists_node_of_standing hbare (standing_planted context d t) hp
      (Part.isRendered_of_rendered hnode)
  obtain rfl : other = node := Option.some.inj (hother.symm.trans hnode)
  refine ⟨Document.lt_size_of_getElem? _ hthere, ?_⟩
  rw [Document.content_of_getElem? hthere, Part.content_of_seed? hseed, Part.kind_derived]

/-- **Rendered nodes are new.** -/
theorem le_of_mem_handles_mount (hbare : t.Bare) {node : NodeId}
    (hnode : node ∈ (t.mount context d root).template.handles) : d.size ≤ node := by
  rw [template_mount, mem_handles_place hbare] at hnode
  exact Nat.le_of_succ_le hnode.1

theorem grows_materialize : Grows d (t.materialize context d root).document := by
  rcases materialize_cases context d root t with ⟨_, heq⟩ | heq | ⟨p, seed, _, _, heq⟩
  · rw [heq]
    exact .plant d _ _
  · rw [heq]
    exact .refl d
  · rw [heq]
    exact .pushPlaced d _

end

/-! ## Patching -/

theorem grows_write {a : Affected} {text : String} {r : Bool × Document κ}
    (h : a.write d text = .ok r) : Grows d r.2 := by
  cases a with
  | text node raw => exact .setData h
  | input node key => exact .setValue h

theorem grows_patch (lookup : Lookup) (missing : MissingKey) (d : Document κ)
    (affected : List Affected) : Grows d (patch lookup missing d affected).document := by
  induction affected generalizing d with
  | nil => exact .refl d
  | cons a rest ih =>
    unfold patch
    dsimp only
    cases hwrite : a.write d (a.derived lookup missing) with
    | error f => exact .refl d
    | ok outcome => exact (grows_write hwrite).trans (ih outcome.2)

/-- Writing what a node has to hold keeps coherence. -/
theorem coherent_write (hd : d.Coherent) {a : Affected} {text : String} {r : Bool × Document κ}
    (h : a.write d text = .ok r) : r.2.Coherent := by
  cases a with
  | text node raw => exact hd.setData h
  | input node key => exact hd.setValue h

/-- **A patch keeps coherence**, also where it fails half-way. -/
theorem coherent_patch (hd : d.Coherent) (lookup : Lookup) (missing : MissingKey)
    (affected : List Affected) : (patch lookup missing d affected).document.Coherent := by
  induction affected generalizing d with
  | nil => exact hd
  | cons a rest ih =>
    unfold patch
    dsimp only
    cases hwrite : a.write d (a.derived lookup missing) with
    | error f => exact hd
    | ok outcome => exact ih (coherent_write hd hwrite)

/-- **What a write to a key does to the document of a template**, when the text of the new value is
`text`. -/
structure Touches (t : Template) (key : String) (inputs : Bool) (lookup : Lookup)
    (missing : MissingKey) (text : String) (d e : Document κ) : Prop where
  links : SameLinks d e
  listeners : SameListeners d e
  /-- A text with a marker for the key holds what it derives now. -/
  marked : ∀ raw node, Part.text raw (some node) ∈ t.preorder → key ∈ Interpolation.keys raw →
    (∃ old, d.content node = .text old) ∧
      e.content node = .text (resolvedText lookup missing raw)
  /-- Where bound inputs follow writes, an element that is bound to the key has the live value, and all
  else that it had. -/
  bound : inputs = true → ∀ tag attributes node,
    Part.element tag attributes (some node) ∈ t.preorder →
      (Part.element tag attributes (some node)).modelKey? = some key →
        ∃ old, d.content node = .element old ∧
          e.content node = .element { old with value := some text }
  /-- Every other node holds what it held. -/
  kept : ∀ node,
    (∀ raw, Part.text raw (some node) ∈ t.preorder → key ∉ Interpolation.keys raw) →
    (inputs = true → ∀ tag attributes, Part.element tag attributes (some node) ∈ t.preorder →
      (Part.element tag attributes (some node)).modelKey? ≠ some key) →
        e.content node = d.content node

/-- A housed template is patched without a fault. -/
theorem Housed.patches {t : Template} (h : t.Housed d) (lookup : Lookup) (missing : MissingKey)
    (key : String) (inputs : Bool) :
    (patch lookup missing d (t.affected key inputs)).fault = none ∧
      Patches lookup missing d (t.affected key inputs)
        (patch lookup missing d (t.affected key inputs)).document := by
  have hsublist := sublist_affected key inputs t
  exact patch_spec (fun a ha => h.lt_of_mem_handles (hsublist.subset (List.mem_map_of_mem ha)))
    (h.nodup.sublist hsublist)

/-- **A patch of a housed template does not fail and touches only what depends on the key.** -/
theorem Housed.touches {t : Template} (h : t.Housed d) {lookup : Lookup} {key text : String}
    (hlookup : lookup key = some text) (missing : MissingKey) (inputs : Bool) :
    (patch lookup missing d (t.affected key inputs)).fault = none ∧
      t.Touches key inputs lookup missing text d
        (patch lookup missing d (t.affected key inputs)).document := by
  obtain ⟨hfault, hpatches⟩ := h.patches lookup missing key inputs
  refine ⟨hfault, hpatches.links, hpatches.listeners, ?_, ?_, ?_⟩
  · intro raw node hp hkey
    have hrevised := hpatches.content_of_mem hp (mem_affected_text.mpr ⟨hkey, rfl⟩)
    obtain ⟨old, hold⟩ := eq_text_of_kind (h.seated _ hp node rfl).2
    rw [show (Affected.text node raw).node = node from rfl, hold] at hrevised
    exact ⟨⟨old, hold⟩, hrevised⟩
  · intro hinputs tag attributes node hp hkey
    have hrevised := hpatches.content_of_mem hp (mem_affected_element.mpr ⟨⟨hinputs, hkey⟩, rfl⟩)
    obtain ⟨old, hold⟩ := eq_element_of_kind (h.seated _ hp node rfl).2
    rw [show (Affected.input node key).node = node from rfl, hold] at hrevised
    refine ⟨old, hold, hrevised.trans ?_⟩
    show Content.element { old with value := some (boundText lookup missing key) } = _
    unfold boundText
    rw [hlookup]
  · intro node htext helement
    refine hpatches.others node fun hmem => ?_
    obtain ⟨a, ha, rfl⟩ := List.mem_map.mp hmem
    obtain ⟨p, hp, hap⟩ := List.mem_flatMap.mp ha
    have hnode := Part.rendered_of_mem_affected hap
    cases p with
    | comment raw => cases hnode
    | text raw rendered =>
      cases hnode
      exact htext raw hp (mem_affected_text.mp hap).1
    | element tag attributes rendered =>
      cases hnode
      obtain ⟨⟨hinputs, hkey⟩, _⟩ := mem_affected_element.mp hap
      exact helement hinputs tag attributes hp hkey

end Template

end BoundView
