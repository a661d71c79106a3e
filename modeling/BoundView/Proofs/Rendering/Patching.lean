import BoundView.Proofs.Markup.RoundTrip
import BoundView.Proofs.Rendering.Placing
import BoundView.Proofs.Tree.Revising

/-!
# Patching brings rendered nodes up to date

A template is **displayed** by a document when the node of each handle holds what its part derives.
Live values may be loose: a bound input that follows no writes, or one that a person is editing,
holds a value of its own.

A patch for a key derives anew what depends on the key and leaves the rest alone. So if a template
was displayed under a lookup that differs at this key at most, it is displayed under the new one
after the patch.

Main statements: `patch_spec`, what a patch does to each node, and `Displays.patch`.
-/

namespace BoundView

open BoundView.Dom (Content Document Element NodeId)
open BoundView.Dom.Document (Revises SameLinks SameListeners)
open BoundView.Interpolation (Lookup MissingKey resolvedText)
open BoundView.Markup (written)

variable {κ : Type} {d : Document κ} {lookup lookup' : Lookup} {missing : MissingKey}

/-! ## One affected node -/

namespace Affected

/-- What an affected node holds after it was written. -/
def revise (value : String) : Affected → Content → Content
  | text _ _ => Content.withData value
  | input _ _ => Content.mapElement fun e => { e with value := some value }

/-- **Writing an affected node that is there** succeeds and revises it. -/
theorem write_spec (a : Affected) (h : a.node < d.size) (value : String) :
    ∃ changed e, a.write d value = .ok (changed, e) ∧ Revises d a.node (a.revise value) e := by
  cases a with
  | text node raw => exact Document.setData_spec h value
  | input node key => exact Document.setValue_spec h value

end Affected

/-! ## All affected nodes -/

/-- **What a patch does**: each affected node holds what it has to, every other node holds what it
held, and neither links nor listeners change. -/
structure Patches (lookup : Lookup) (missing : MissingKey) (d : Document κ) (affected : List Affected)
    (e : Document κ) : Prop where
  links : SameLinks d e
  listeners : SameListeners d e
  revised : ∀ a ∈ affected, e.content a.node = a.revise (a.derived lookup missing) (d.content a.node)
  others : ∀ x, x ∉ affected.map Affected.node → e.content x = d.content x

/-- **A patch of different nodes that are there** does not fail and does just that. -/
theorem patch_spec {affected : List Affected} (hthere : ∀ a ∈ affected, a.node < d.size)
    (hnodup : (affected.map Affected.node).Nodup) :
    (patch lookup missing d affected).fault = none ∧
      Patches lookup missing d affected (patch lookup missing d affected).document := by
  induction affected generalizing d with
  | nil =>
    exact ⟨rfl, .refl d, fun _ => rfl, fun _ ha => absurd ha List.not_mem_nil, fun _ _ => rfl⟩
  | cons a rest ih =>
    rw [List.map_cons] at hnodup
    obtain ⟨hfresh, hrest⟩ := List.nodup_cons.mp hnodup
    obtain ⟨changed, e, hwrite, hlinks, hlisteners, hcontent⟩ :=
      a.write_spec (hthere a List.mem_cons_self) (a.derived lookup missing)
    have hlater : ∀ b ∈ rest, b.node < e.size := by
      intro b hb
      rw [hlinks.size]
      exact hthere b (List.mem_cons_of_mem _ hb)
    obtain ⟨hfault, hpatches⟩ := ih hlater hrest
    unfold patch
    rw [hwrite]
    refine ⟨hfault, hlinks.trans hpatches.links, hlisteners.trans hpatches.listeners, ?_, ?_⟩
    · intro b hb
      rcases List.mem_cons.mp hb with rfl | hb
      · show (patch lookup missing e rest).document.content _ = _
        rw [hpatches.others b.node hfresh, hcontent, if_pos rfl]
      · have hne : b.node ≠ a.node := by
          intro heq
          exact hfresh (heq ▸ List.mem_map_of_mem hb)
        show (patch lookup missing e rest).document.content _ = _
        rw [hpatches.revised b hb, hcontent, if_neg hne]
    · intro x hx
      rw [List.map_cons] at hx
      have hxa : x ≠ a.node := fun heq => hx (heq ▸ List.mem_cons_self)
      have hxrest : x ∉ rest.map Affected.node := fun hmem => hx (List.mem_cons_of_mem _ hmem)
      show (patch lookup missing e rest).document.content _ = _
      rw [hpatches.others x hxrest, hcontent, if_neg hxa]

/-! ## Displayed templates -/

/-- **A part is displayed at a node** that holds what the part derives, up to a loose live value. -/
structure Part.Displayed (d : Document κ) (lookup : Lookup) (missing : MissingKey) (loose : Prop)
    (p : Part) (node : NodeId) : Prop where
  there : node < d.size
  kept : written (d.content node) = written (p.derived lookup missing)
  exact : ¬ loose → d.content node = p.derived lookup missing

/-- What is held to less is displayed still. -/
theorem Part.Displayed.mono {loose loose' : Prop} {p : Part} {node : NodeId}
    (h : p.Displayed d lookup missing loose node) (hloose : loose → loose') :
    p.Displayed d lookup missing loose' node :=
  ⟨h.there, h.kept, fun hfirm => h.exact fun hl => hfirm (hloose hl)⟩

/-- **A template is displayed** when the node of each handle holds what its part derives. -/
def Displays (d : Document κ) (lookup : Lookup) (missing : MissingKey) (loose : Part → NodeId → Prop)
    (t : Template) : Prop :=
  ∀ p ∈ t.preorder, ∀ node, p.rendered = some node → p.Displayed d lookup missing (loose p node) node

theorem eq_text_of_written {c : Content} {data : String} (h : written c = .text data) :
    c = .text data := by
  cases c <;> cases h
  rfl

theorem eq_element_of_written {c : Content} {e : Element} (h : written c = written (.element e)) :
    ∃ value, c = .element { e with value } := by
  cases c with
  | element e' =>
    have htag : e'.tag = e.tag := congrArg (fun c => (c.element?.map Element.tag).getD "") h
    have hattributes : e'.attributes = e.attributes := congrArg Content.attributes h
    exact ⟨e'.value, by rw [← htag, ← hattributes]⟩
  | text data => cases h
  | comment data => cases h
  | document => cases h
  | fragment => cases h

/-- Assigning a live value keeps a part displayed; the live value of the node itself becomes loose. -/
theorem Part.Displayed.assign {e : Document κ} {loose loose' : Prop} {p : Part} {node other : NodeId}
    {value : String} (h : p.Displayed d lookup missing loose node)
    (hrevises : Revises d other (Content.mapElement fun e => { e with value := some value }) e)
    (hloose : loose → loose') (hself : node = other → loose') :
    p.Displayed e lookup missing loose' node := by
  have hthere : node < e.size := hrevises.links.size.symm ▸ h.there
  have hcontent := hrevises.content node
  by_cases hnode : node = other
  · rw [if_pos hnode] at hcontent
    refine ⟨hthere, ?_, fun hfirm => absurd (hself hnode) hfirm⟩
    rw [hcontent, ← h.kept]
    cases d.content node <;> rfl
  · rw [if_neg hnode] at hcontent
    refine ⟨hthere, ?_, fun hfirm => ?_⟩
    · rw [hcontent]
      exact h.kept
    · rw [hcontent]
      exact h.exact fun hl => hfirm (hloose hl)

/-! ## What a key affects -/

theorem Part.rendered_of_mem_affected {key : String} {inputs : Bool} {p : Part} {a : Affected}
    (h : a ∈ p.affected key inputs) : p.rendered = some a.node := by
  unfold Part.affected at h
  split at h
  · split at h
    · rw [List.mem_singleton.mp h]
      rfl
    · cases h
  · split at h
    · rw [List.mem_singleton.mp h]
      rfl
    · cases h
  · cases h

theorem sublist_affected (key : String) (inputs : Bool) (t : Template) :
    ((t.affected key inputs).map Affected.node).Sublist t.handles := by
  have one : ∀ p : Part, ((p.affected key inputs).map Affected.node).Sublist p.rendered.toList := by
    intro p
    unfold Part.affected
    split
    · split
      · exact .refl _
      · exact List.nil_sublist _
    · split
      · exact .refl _
      · exact List.nil_sublist _
    · exact List.nil_sublist _
  unfold Template.affected Template.handles
  induction t.preorder with
  | nil => exact .refl _
  | cons p ps ih =>
    rw [List.flatMap_cons, List.map_append, List.filterMap_cons]
    have hp := one p
    cases hrendered : p.rendered with
    | none =>
      rw [hrendered] at hp
      exact hp.append ih
    | some node =>
      rw [hrendered] at hp
      exact hp.append ih

/-- **What affects a node is the part at the node.** -/
theorem mem_affected_iff {key : String} {inputs : Bool} {t : Template} (hnodup : t.handles.Nodup)
    {p : Part} (hp : p ∈ t.preorder) {node : NodeId} (hnode : p.rendered = some node) :
    node ∈ (t.affected key inputs).map Affected.node ↔
      ∃ a ∈ p.affected key inputs, a.node = node := by
  constructor
  · intro hmem
    obtain ⟨a, ha, rfl⟩ := List.mem_map.mp hmem
    obtain ⟨q, hq, haq⟩ := List.mem_flatMap.mp ha
    have hpq := t.eq_of_rendered hnodup hp hnode hq (Part.rendered_of_mem_affected haq)
    exact ⟨a, hpq ▸ haq, rfl⟩
  · rintro ⟨a, ha, rfl⟩
    exact List.mem_map_of_mem (List.mem_flatMap.mpr ⟨p, hp, ha⟩)

/-- **Nothing but rendered nodes changed**, and no link and no listener at all. -/
structure SameOutside (t : Template) (d e : Document κ) : Prop where
  links : SameLinks d e
  listeners : SameListeners d e
  content : ∀ x, x ∉ t.handles → e.content x = d.content x

theorem mem_affected_text {key raw : String} {inputs : Bool} {node : NodeId} {a : Affected} :
    a ∈ (Part.text raw (some node)).affected key inputs ↔
      key ∈ Interpolation.keys raw ∧ a = .text node raw := by
  unfold Part.affected
  dsimp only
  by_cases hkey : (Interpolation.keys raw).contains key = true
  · rw [if_pos hkey, List.mem_singleton]
    exact ⟨fun ha => ⟨List.contains_iff_mem.mp hkey, ha⟩, fun ha => ha.2⟩
  · rw [if_neg hkey]
    exact ⟨fun ha => absurd ha List.not_mem_nil,
      fun ha => absurd (List.contains_iff_mem.mpr ha.1) hkey⟩

theorem mem_affected_element {key tag : String} {attributes : Dom.Attributes} {inputs : Bool}
    {node : NodeId} {a : Affected} :
    a ∈ (Part.element tag attributes (some node)).affected key inputs ↔
      (inputs = true ∧ (Part.element tag attributes (some node)).modelKey? = some key) ∧
        a = .input node key := by
  unfold Part.affected
  dsimp only
  by_cases hkey : (inputs && (Part.element tag attributes (some node)).modelKey? == some key) = true
  · rw [if_pos hkey, List.mem_singleton]
    rw [Bool.and_eq_true, beq_iff_eq] at hkey
    exact ⟨fun ha => ⟨hkey, ha⟩, fun ha => ha.2⟩
  · rw [if_neg hkey]
    rw [Bool.and_eq_true, beq_iff_eq] at hkey
    exact ⟨fun ha => absurd ha List.not_mem_nil, fun ha => absurd ha.1 hkey⟩

section

variable {t : Template} {key : String} {inputs : Bool} {e : Document κ}

/-- The node of a part that is affected is revised. -/
theorem Patches.content_of_mem (h : Patches lookup' missing d (t.affected key inputs) e) {p : Part}
    (hp : p ∈ t.preorder) {a : Affected} (ha : a ∈ p.affected key inputs) :
    e.content a.node = a.revise (a.derived lookup' missing) (d.content a.node) :=
  h.revised a (List.mem_flatMap.mpr ⟨p, hp, ha⟩)

/-- The node of a part that is not affected is left alone. -/
theorem Patches.content_of_unaffected (h : Patches lookup' missing d (t.affected key inputs) e)
    (hnodup : t.handles.Nodup) {p : Part} (hp : p ∈ t.preorder) {node : NodeId}
    (hnode : p.rendered = some node) (hnone : ∀ a, a ∉ p.affected key inputs) :
    e.content node = d.content node := by
  refine h.others node fun hin => ?_
  obtain ⟨a, ha, _⟩ := (mem_affected_iff hnodup hp hnode).mp hin
  exact hnone a ha

/-- **A text after a patch** holds what it derives now, whether it names the key or not. -/
theorem Patches.content_text (h : Patches lookup' missing d (t.affected key inputs) e)
    (hnodup : t.handles.Nodup) (hagree : ∀ k, k ≠ key → lookup' k = lookup k) {raw : String}
    {node : NodeId} (hp : Part.text raw (some node) ∈ t.preorder)
    (hold : d.content node = .text (resolvedText lookup missing raw)) :
    e.content node = .text (resolvedText lookup' missing raw) := by
  by_cases hkey : key ∈ Interpolation.keys raw
  · have hrevised := h.content_of_mem hp (mem_affected_text.mpr ⟨hkey, rfl⟩)
    rw [show (Affected.text node raw).node = node from rfl, hold] at hrevised
    exact hrevised
  · have hnone : ∀ a, a ∉ (Part.text raw (some node)).affected key inputs :=
      fun a ha => hkey (mem_affected_text.mp ha).1
    rw [h.content_of_unaffected hnodup hp rfl hnone, hold, Interpolation.resolvedText_congr missing]
    intro k hk
    refine (hagree k fun heq => hkey ?_).symm
    rw [← heq]
    exact hk

/-- **An element after a patch of the key that it is bound to** holds what it derives now. -/
theorem Patches.content_element (h : Patches lookup' missing d (t.affected key inputs) e)
    {tag : String} {attributes : Dom.Attributes} {node : NodeId}
    (hp : Part.element tag attributes (some node) ∈ t.preorder) (hinputs : inputs = true)
    (hkey : (Part.element tag attributes (some node)).modelKey? = some key)
    (hkept : written (d.content node) =
      written ((Part.element tag attributes (some node)).derived lookup missing)) :
    e.content node = (Part.element tag attributes (some node)).derived lookup' missing := by
  obtain ⟨value, hold⟩ := eq_element_of_written hkept
  have hrevised := h.content_of_mem hp (mem_affected_element.mpr ⟨⟨hinputs, hkey⟩, rfl⟩)
  rw [show (Affected.input node key).node = node from rfl, hold] at hrevised
  rw [hrevised]
  unfold Part.derived
  rw [hkey]
  rfl

/-- **One part after a patch.** If its node is affected, it holds what the part derives now; if not,
the part derives the same as before, or its live value is loose. -/
theorem Part.Displayed.patch (hnodup : t.handles.Nodup)
    (hagree : ∀ k, k ≠ key → lookup' k = lookup k)
    (hpatches : Patches lookup' missing d (t.affected key inputs) e) {p : Part}
    (hp : p ∈ t.preorder) {node : NodeId} (hnode : p.rendered = some node) {loose loose' : Prop}
    (h : p.Displayed d lookup missing loose node) (hinputs : inputs = false → loose')
    (hloose : loose → loose' ∨ inputs = true ∧ p.modelKey? = some key) :
    p.Displayed e lookup' missing loose' node := by
  have hthere : node < e.size := hpatches.links.size.symm ▸ h.there
  cases p with
  | comment raw => cases hnode
  | text raw rendered =>
    cases hnode
    have hnew := hpatches.content_text hnodup hagree hp (eq_text_of_written h.kept)
    exact ⟨hthere, congrArg written hnew, fun _ => hnew⟩
  | element tag attributes rendered =>
    cases hnode
    by_cases hbound : inputs = true ∧
        (Part.element tag attributes (some node)).modelKey? = some key
    · have hnew := hpatches.content_element hp hbound.1 hbound.2 h.kept
      exact ⟨hthere, congrArg written hnew, fun _ => hnew⟩
    · have hsame : e.content node = d.content node :=
        hpatches.content_of_unaffected hnodup hp rfl fun a ha => hbound (mem_affected_element.mp ha).1
      refine ⟨hthere, ?_, ?_⟩
      · rw [hsame, h.kept]
        rfl
      · intro hexact
        have hinput : inputs = true := by
          rw [← Bool.not_eq_false]
          exact fun hfalse => hexact (hinputs hfalse)
        have hfirm : ¬ loose := by
          intro hl
          rcases hloose hl with hl' | hkey
          · exact hexact hl'
          · exact hbound hkey
        rw [hsame, h.exact hfirm]
        refine (Part.derived_congr missing fun k hk => hagree k fun heq => hbound ⟨hinput, ?_⟩).symm
        rw [← heq]
        exact hk

end

/-- **A patch brings a displayed template up to date** with a lookup that differs at the key of the
patch at most. It does not fail, and it changes nothing but rendered nodes. What is loose may become
firm at the nodes that are bound to the key. -/
theorem Displays.patch {t : Template} {loose loose' : Part → NodeId → Prop} {key : String}
    {inputs : Bool} (h : Displays d lookup missing loose t) (hnodup : t.handles.Nodup)
    (hagree : ∀ k, k ≠ key → lookup' k = lookup k)
    (hinputs : inputs = false → ∀ p node, loose' p node)
    (hloose : ∀ p ∈ t.preorder, ∀ node, p.rendered = some node → loose p node →
      loose' p node ∨ inputs = true ∧ p.modelKey? = some key) :
    (BoundView.patch lookup' missing d (t.affected key inputs)).fault = none ∧
      SameOutside t d (BoundView.patch lookup' missing d (t.affected key inputs)).document ∧
        Displays (BoundView.patch lookup' missing d (t.affected key inputs)).document lookup' missing
          loose' t := by
  have hsublist := sublist_affected key inputs t
  have hthere : ∀ a ∈ t.affected key inputs, a.node < d.size := by
    intro a ha
    obtain ⟨p, hp, hap⟩ := List.mem_flatMap.mp ha
    exact (h p hp a.node (Part.rendered_of_mem_affected hap)).there
  have hspec : (BoundView.patch lookup' missing d (t.affected key inputs)).fault = none ∧
      Patches lookup' missing d (t.affected key inputs)
        (BoundView.patch lookup' missing d (t.affected key inputs)).document :=
    patch_spec hthere (hnodup.sublist hsublist)
  obtain ⟨hfault, hpatches⟩ := hspec
  refine ⟨hfault, ⟨hpatches.links, hpatches.listeners, fun x hx => ?_⟩, ?_⟩
  · exact hpatches.others x fun hmem => hx (hsublist.subset hmem)
  · intro p hp node hnode
    exact (h p hp node hnode).patch hnodup hagree hpatches hp hnode
      (fun hfalse => hinputs hfalse p node) (hloose p hp node hnode)

end BoundView
