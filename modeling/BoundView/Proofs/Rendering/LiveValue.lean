import BoundView.Proofs.Rendering.Patching

/-!
# Live values of nodes

A listener that carries edits to a key reads the **live value** of a node, where a node without one
counts as empty. Live values change in two ways: somebody edits the node, or a patch assigns a value to
a bound input. A patch for a key reaches only those inputs that are bound to this key.

Main statements: `liveText_patch`, `Template.eq_of_input_mem_affected`.
-/

namespace BoundView

open BoundView.Dom (Content Document NodeId)
open BoundView.Dom.Document (Revises)
open BoundView.Interpolation (Lookup MissingKey)

variable {κ : Type}

namespace Dom.Document

variable {d e : Document κ} {id : NodeId}

/-- **What a listener reads of a node**: its live value; a node without one counts as empty. -/
def liveText (d : Document κ) (id : NodeId) : String :=
  ((d.content id).element?.bind Element.currentValue?).getD ""

theorem value_eq_ok (h : id < d.size) :
    d.value id = .ok ((d.content id).element?.bind Element.currentValue?) := by
  obtain ⟨n, hn⟩ := d.exists_node h
  unfold value
  rw [(d.node_eq_ok_iff).mpr hn, content_of_getElem? hn]
  rfl

/-- The live value after an assignment; nodes that are no elements take none. -/
theorem liveText_assign {value : String}
    (h : Revises d id (Content.mapElement fun e => { e with value := some value }) e) :
    e.liveText id = if (d.content id).element?.isSome then value else "" := by
  unfold liveText
  rw [h.content, if_pos rfl]
  cases d.content id <;> rfl

section

variable {value : String}
  (h : Revises d id (Content.mapElement fun e => { e with value := some value }) e)

include h

/-- An element has the live value that was assigned to it, -/
theorem value_assign (hid : id < d.size) {element : Element} (helement : d.content id = .element element) :
    e.value id = .ok (some value) := by
  rw [value_eq_ok (h.links.size.symm ▸ hid), h.content, if_pos rfl, helement]
  rfl

/-- and all other nodes have theirs. -/
theorem value_assign_of_ne {other : NodeId} (hother : other < d.size) (hne : other ≠ id) :
    e.value other = d.value other := by
  rw [value_eq_ok (h.links.size.symm ▸ hother), value_eq_ok hother, h.content, if_neg hne]

end

end Dom.Document

section

variable {d e : Document κ} {lookup : Lookup} {missing : MissingKey} {id : NodeId} {text : String}

/-- Only a node that is there can be written. -/
theorem Affected.lt_of_write {a : Affected} {value : String} {changed : Bool}
    (h : a.write d value = .ok (changed, e)) : a.node < d.size := by
  refine Nat.lt_of_not_le fun hge => ?_
  have herror : d.node a.node = .error _ := (d.node_eq_error_iff).mpr ⟨hge, rfl⟩
  cases a with
  | text node raw =>
    replace herror : d.node node = .error _ := herror
    replace h : d.setData node value = .ok (changed, e) := h
    unfold Document.setData at h
    rw [herror] at h
    cases h
  | input node key =>
    replace herror : d.node node = .error _ := herror
    replace h : d.setValue node value = .ok (changed, e) := h
    unfold Document.setValue at h
    rw [herror] at h
    cases h

/-- Writing an affected node keeps a live value, unless it assigns another one. -/
theorem Affected.liveText_write {a : Affected} {value : String} {changed : Bool}
    (h : a.write d value = .ok (changed, e)) (hlive : d.liveText id = text)
    (hinput : ∀ key, a = .input id key → value = text) : e.liveText id = text := by
  obtain ⟨_, _, hwrite, hrevises⟩ := a.write_spec (lt_of_write h) value
  cases h.symm.trans hwrite
  have hcontent := hrevises.content id
  rw [← hlive]
  unfold Document.liveText
  by_cases hid : id = a.node
  · rw [hcontent, if_pos hid]
    cases a with
    | text node raw => cases d.content id <;> rfl
    | input node key =>
      obtain rfl : id = node := hid
      have hvalue := (hinput key rfl).trans hlive.symm
      unfold Document.liveText at hvalue
      unfold revise
      dsimp only
      cases hnode : d.content id with
      | element e =>
        rw [hnode] at hvalue
        exact hvalue
      | text data => rfl
      | comment data => rfl
      | document => rfl
      | fragment => rfl
  · rw [hcontent, if_neg hid]

/-- **A patch keeps a live value**, unless it assigns another one. -/
theorem liveText_patch {affected : List Affected} (hlive : d.liveText id = text)
    (hinput : ∀ key, .input id key ∈ affected → boundText lookup missing key = text) :
    (patch lookup missing d affected).document.liveText id = text := by
  induction affected generalizing d with
  | nil => exact hlive
  | cons a rest ih =>
    unfold patch
    dsimp only
    cases hwrite : a.write d (a.derived lookup missing) with
    | error f => exact hlive
    | ok outcome =>
      refine ih (Affected.liveText_write hwrite hlive ?_) fun key hkey =>
        hinput key (List.mem_cons_of_mem _ hkey)
      rintro key rfl
      exact hinput key List.mem_cons_self

/-- A patch for a key assigns no live values but those of this key. -/
theorem Template.eq_of_input_mem_affected {t : Template} {key k : String} {inputs : Bool}
    (h : .input id k ∈ t.affected key inputs) : k = key := by
  obtain ⟨p, _, hp⟩ := List.mem_flatMap.mp h
  have hrendered := Part.rendered_of_mem_affected hp
  cases p with
  | comment raw => cases hrendered
  | text raw rendered =>
    cases hrendered
    cases (mem_affected_text.mp hp).2
  | element tag attributes rendered =>
    cases hrendered
    cases (mem_affected_element.mp hp).2
    rfl

end

end BoundView
