import BoundView.Proofs.Rendering.Housing
import BoundView.Proofs.Tree.Retaining

/-!
# What a patch counts

A patch for a key visits what depends on the key: the rendered texts with a marker for it and, where bound
inputs follow writes, the rendered elements that are bound to it. It changes those that hold something
else than they derive, and no others. Derived anew a node holds what it derives, so a second patch finds
nothing to change.

A template is **fresh** when everything that depends on a declared key holds what it derives, except for
the live values of some nodes. A fresh template stays fresh while what its nodes hold is retained, and a
patch for a key makes it fresh again after a write to this key.

Main statements: `Template.Housed.stats_patch`, what a patch counts; `Template.Fresh.patch`, what is
fresh after a patch.
-/

namespace BoundView

open BoundView.Dom (Content Document NodeId)
open BoundView.Dom.Document (Retains Revises)
open BoundView.Interpolation (Lookup MissingKey resolvedText)

variable {κ : Type} {d e : Document κ} {lookup lookup' : Lookup} {missing : MissingKey}

/-! ## What depends on a key -/

/-- Whether a part is a rendered text with a marker for a key. -/
def Part.isMarked (key : String) (p : Part) : Bool := p.rendered.isSome && p.keys.contains key

/-- Whether a part is a rendered element that is bound to a key. -/
def Part.isBound (key : String) (p : Part) : Bool := p.rendered.isSome && p.modelKey? == some key

/-- **A stale part**: its node holds something else than the part derives. -/
def Part.isStale (d : Document κ) (lookup : Lookup) (missing : MissingKey) (p : Part) : Bool :=
  p.rendered.any fun node => (d.content node).held? != (p.derived lookup missing).held?

/-- **How many parts depend on a key**, of those that count. -/
def Template.dependents (t : Template) (key : String) (inputs : Bool) (counts : Part → Bool) : Nat :=
  t.preorder.countP (fun p => p.isMarked key && counts p) +
    if inputs then t.preorder.countP (fun p => p.isBound key && counts p) else 0

/-- What a key affects in one part is counted by the part. -/
theorem Part.countP_affected {p : Part} {key : String} {inputs : Bool} {f : Affected → Bool}
    {counts : Part → Bool} (h : ∀ a ∈ p.affected key inputs, f a = counts p) :
    (p.affected key inputs).countP f =
      (if p.isMarked key && counts p then 1 else 0) +
        if inputs then (if p.isBound key && counts p then 1 else 0) else 0 := by
  have hone : ∀ a, p.affected key inputs = [a] →
      (p.affected key inputs).countP f = if counts p then 1 else 0 := by
    intro a ha
    have hmem : a ∈ p.affected key inputs := ha ▸ List.mem_singleton_self a
    rw [ha, List.countP_singleton, h a hmem]
  cases p with
  | comment raw => cases inputs <;> rfl
  | text raw rendered =>
    cases rendered with
    | none => cases inputs <;> rfl
    | some node =>
      have hbound : (Part.text raw (some node)).isBound key = false := rfl
      have hmarked : (Part.text raw (some node)).isMarked key =
        (Interpolation.keys raw).contains key := rfl
      rw [hbound, hmarked, Bool.false_and, if_neg Bool.false_ne_true, ite_self, Nat.add_zero]
      by_cases hkey : (Interpolation.keys raw).contains key = true
      · have haffected : (Part.text raw (some node)).affected key inputs = [.text node raw] :=
          if_pos hkey
        rw [hone _ haffected, hkey, Bool.true_and]
      · have haffected : (Part.text raw (some node)).affected key inputs = [] := if_neg hkey
        rw [haffected, eq_false_of_ne_true hkey, Bool.false_and]
        rfl
  | element tag attributes rendered =>
    have hmarked : (Part.element tag attributes rendered).isMarked key = false := Bool.and_false _
    rw [hmarked, Bool.false_and, if_neg Bool.false_ne_true, Nat.zero_add]
    cases rendered with
    | none => cases inputs <;> rfl
    | some node =>
      cases inputs with
      | false => rfl
      | true =>
        rw [if_pos rfl]
        have hbound : (Part.element tag attributes (some node)).isBound key =
          ((Part.element tag attributes (some node)).modelKey? == some key) := rfl
        rw [hbound]
        by_cases hkey : ((Part.element tag attributes (some node)).modelKey? == some key) = true
        · have haffected : (Part.element tag attributes (some node)).affected key true =
              [.input node key] := if_pos hkey
          rw [hone _ haffected, hkey, Bool.true_and]
        · have haffected : (Part.element tag attributes (some node)).affected key true = [] :=
            if_neg hkey
          rw [haffected, eq_false_of_ne_true hkey, Bool.false_and]
          rfl

/-- **What a key affects is what depends on it.** -/
theorem Template.countP_affected {t : Template} {key : String} {inputs : Bool} {f : Affected → Bool}
    {counts : Part → Bool} (h : ∀ p ∈ t.preorder, ∀ a ∈ p.affected key inputs, f a = counts p) :
    (t.affected key inputs).countP f = t.dependents key inputs counts := by
  unfold Template.affected Template.dependents
  generalize t.preorder = ps at h
  induction ps with
  | nil => cases inputs <;> rfl
  | cons p ps ih =>
    have hp := Part.countP_affected (h p List.mem_cons_self)
    have hps := ih fun q hq => h q (List.mem_cons_of_mem _ hq)
    rw [List.flatMap_cons, List.countP_append, hp, hps, List.countP_cons, List.countP_cons]
    cases inputs with
    | false => simp only [Bool.false_eq_true, if_false]; omega
    | true => simp only [if_true]; omega

/-! ## One affected node -/

namespace Dom.Document

theorem setData_of_text {id : NodeId} {old : String} (hid : id < d.size) (hold : d.content id = .text old)
    (data : String) : d.setData id data = .ok
      (if old = data then (false, d)
      else (true, d.modify id fun n => { n with content := n.content.withData data })) := by
  obtain ⟨n, hn⟩ := d.exists_node hid
  have hcontent : n.content = .text old := (content_of_getElem? hn).symm.trans hold
  unfold setData
  rw [(d.node_eq_ok_iff).mpr hn]
  simp only [Except.map, hcontent, Content.data?]

theorem setValue_of_element {id : NodeId} {old : Dom.Element} (hid : id < d.size)
    (hold : d.content id = .element old) (value : String) : d.setValue id value = .ok
      (if old.value = some value then (false, d)
      else (true, d.modifyElement id fun e => { e with value := some value })) := by
  obtain ⟨n, hn⟩ := d.exists_node hid
  have hcontent : n.content = .element old := (content_of_getElem? hn).symm.trans hold
  unfold setValue
  rw [(d.node_eq_ok_iff).mpr hn]
  simp only [Except.map, hcontent, Content.element?]

end Dom.Document

namespace Affected

/-- The kind of an affected node. -/
def kind : Affected → Nat
  | text _ _ => 3
  | input _ _ => 1

/-- **An affected node in its seat**: it is in the document, and of the right kind. -/
structure Seated (a : Affected) (d : Document κ) : Prop where
  lt : a.node < d.size
  kind : (d.content a.node).kind = a.kind

variable {a : Affected}

/-- What was assigned is held. -/
theorem Seated.held?_revise (h : a.Seated d) (value : String) :
    (a.revise value (d.content a.node)).held? = some value := by
  cases a with
  | text node raw =>
    obtain ⟨old, hold⟩ := eq_text_of_kind h.kind
    rw [hold]
    rfl
  | input node key =>
    obtain ⟨old, hold⟩ := eq_element_of_kind h.kind
    rw [hold]
    rfl

/-- **What a write says of itself**: it changed the node if the node held something else, and otherwise
it left the document alone. -/
theorem Seated.changed_of_write (h : a.Seated d) {value : String} {changed : Bool}
    (hwrite : a.write d value = .ok (changed, e)) :
    changed = decide ((d.content a.node).held? ≠ some value) ∧
      ((d.content a.node).held? = some value → e = d) := by
  cases a with
  | text node raw =>
    obtain ⟨old, hold⟩ := eq_text_of_kind h.kind
    have hresult := Except.ok.inj ((Document.setData_of_text h.lt hold value).symm.trans hwrite)
    rw [hold]
    show changed = decide (some old ≠ some value) ∧ (some old = some value → e = d)
    by_cases hvalue : old = value
    · rw [if_pos hvalue] at hresult
      cases hresult
      simp [hvalue]
    · rw [if_neg hvalue] at hresult
      cases hresult
      simp [hvalue]
  | input node key =>
    obtain ⟨old, hold⟩ := eq_element_of_kind h.kind
    have hresult := Except.ok.inj ((Document.setValue_of_element h.lt hold value).symm.trans hwrite)
    rw [hold]
    show changed = decide (old.value ≠ some value) ∧ (old.value = some value → e = d)
    by_cases hvalue : old.value = some value
    · rw [if_pos hvalue] at hresult
      cases hresult
      simp [hvalue]
    · rw [if_neg hvalue] at hresult
      cases hresult
      simp [hvalue]

/-- **Writing a seated node** succeeds, and says whether the node held something else. -/
theorem Seated.write_eq (h : a.Seated d) (value : String) :
    ∃ e, a.write d value = .ok (decide ((d.content a.node).held? ≠ some value), e) ∧
      Revises d a.node (a.revise value) e := by
  obtain ⟨changed, e, hwrite, hrevises⟩ := a.write_spec h.lt value
  obtain ⟨rfl, -⟩ := h.changed_of_write hwrite
  exact ⟨e, hwrite, hrevises⟩

theorem Seated.write_of_held (h : a.Seated d) {value : String}
    (hheld : (d.content a.node).held? = some value) : a.write d value = .ok (false, d) := by
  obtain ⟨changed, e, hwrite, -⟩ := a.write_spec h.lt value
  obtain ⟨hchanged, hsame⟩ := h.changed_of_write hwrite
  rw [hwrite, hchanged, hsame hheld, hheld, decide_eq_false fun hne => hne rfl]

/-- A node that is not written stays in its seat. -/
theorem Seated.of_revises {b : Affected} {f : Content → Content} (h : b.Seated d)
    (hrevises : Revises d a.node f e) (hne : b.node ≠ a.node) :
    b.Seated e ∧ e.content b.node = d.content b.node := by
  have hcontent := hrevises.content b.node
  rw [if_neg hne] at hcontent
  exact ⟨⟨hrevises.links.size.symm ▸ h.lt, hcontent.symm ▸ h.kind⟩, hcontent⟩

end Affected

/-! ## All affected nodes -/

/-- **What a patch counts**: the nodes it visits, and those of them that held something else. -/
theorem stats_patch {affected : List Affected} (hseated : ∀ a ∈ affected, a.Seated d)
    (hnodup : (affected.map Affected.node).Nodup) :
    (patch lookup missing d affected).stats = ⟨affected.length, affected.countP fun a =>
      (d.content a.node).held? ≠ some (a.derived lookup missing)⟩ := by
  induction affected generalizing d with
  | nil => rfl
  | cons a rest ih =>
    rw [List.map_cons] at hnodup
    obtain ⟨hfresh, hrest⟩ := List.nodup_cons.mp hnodup
    obtain ⟨e, hwrite, hrevises⟩ :=
      (hseated a List.mem_cons_self).write_eq (a.derived lookup missing)
    have hothers : ∀ b ∈ rest, b.Seated e ∧ e.content b.node = d.content b.node := fun b hb =>
      (hseated b (List.mem_cons_of_mem _ hb)).of_revises hrevises fun heq =>
        hfresh (heq ▸ List.mem_map_of_mem hb)
    have hlater := ih (fun b hb => (hothers b hb).1) hrest
    have hsame : rest.countP (fun b => (e.content b.node).held? ≠ some (b.derived lookup missing)) =
        rest.countP fun b => (d.content b.node).held? ≠ some (b.derived lookup missing) :=
      List.countP_congr fun b hb => by rw [(hothers b hb).2]
    unfold patch
    rw [hwrite]
    dsimp only
    rw [hlater, hsame, List.length_cons, List.countP_cons]

/-- **A patch of what is up to date** leaves the document alone. -/
theorem patch_of_held {affected : List Affected} (hseated : ∀ a ∈ affected, a.Seated d)
    (hheld : ∀ a ∈ affected, (d.content a.node).held? = some (a.derived lookup missing)) :
    (patch lookup missing d affected).document = d := by
  induction affected with
  | nil => rfl
  | cons a rest ih =>
    unfold patch
    rw [(hseated a List.mem_cons_self).write_of_held (hheld a List.mem_cons_self)]
    exact ih (fun b hb => hseated b (List.mem_cons_of_mem _ hb))
      fun b hb => hheld b (List.mem_cons_of_mem _ hb)

/-! ## What a key affects -/

/-- An affected node derives what its part does, and is of the part's kind. -/
theorem Part.held?_derived {p : Part} {key : String} {inputs : Bool} {a : Affected}
    (h : a ∈ p.affected key inputs) :
    (p.derived lookup missing).held? = some (a.derived lookup missing) ∧ p.kind = a.kind := by
  cases p with
  | comment raw => cases h
  | text raw rendered =>
    cases rendered with
    | none => cases h
    | some node =>
      obtain ⟨_, rfl⟩ := mem_affected_text.mp h
      exact ⟨rfl, rfl⟩
  | element tag attributes rendered =>
    cases rendered with
    | none => cases h
    | some node =>
      obtain ⟨⟨_, hkey⟩, rfl⟩ := mem_affected_element.mp h
      refine ⟨?_, rfl⟩
      show (Part.modelKey? (.element tag attributes (some node))).map _ = _
      rw [hkey]
      rfl

/-- Whatever the key, there is one thing to affect in a part: its text, or the live value that is bound to
its one key. -/
theorem Part.eq_of_mem_affected {p : Part} {key other : String} {inputs : Bool} {a b : Affected}
    (ha : a ∈ p.affected key inputs) (hb : b ∈ p.affected other inputs) : a = b := by
  cases p with
  | comment raw => cases ha
  | text raw rendered =>
    cases rendered with
    | none => cases ha
    | some node => rw [(mem_affected_text.mp ha).2, (mem_affected_text.mp hb).2]
  | element tag attributes rendered =>
    cases rendered with
    | none => cases ha
    | some node =>
      obtain ⟨⟨_, hkey⟩, rfl⟩ := mem_affected_element.mp ha
      obtain ⟨⟨_, hother⟩, rfl⟩ := mem_affected_element.mp hb
      rw [Option.some.inj (hkey.symm.trans hother)]

/-- Another key does not matter to what an affected node derives, unless it affects the node. -/
theorem Part.derived_of_not_affected {p : Part} {key other : String} {inputs : Bool} {a : Affected}
    (ha : a ∈ p.affected other inputs) (hnone : a ∉ p.affected key inputs)
    (hagree : ∀ k, k ≠ key → lookup' k = lookup k) :
    a.derived lookup' missing = a.derived lookup missing := by
  cases p with
  | comment raw => cases ha
  | text raw rendered =>
    cases rendered with
    | none => cases ha
    | some node =>
      obtain ⟨_, rfl⟩ := mem_affected_text.mp ha
      refine Interpolation.resolvedText_congr missing fun k hk => hagree k ?_
      rintro rfl
      exact hnone (mem_affected_text.mpr ⟨hk, rfl⟩)
  | element tag attributes rendered =>
    cases rendered with
    | none => cases ha
    | some node =>
      obtain ⟨⟨hinputs, hbound⟩, rfl⟩ := mem_affected_element.mp ha
      have hne : other ≠ key := by
        rintro rfl
        exact hnone ha
      show boundText lookup' missing other = boundText lookup missing other
      unfold boundText
      rw [hagree other hne]

namespace Template

variable {t : Template} {key : String} {inputs : Bool}

/-- **What a key affects in a housed template is seated.** -/
theorem Housed.seats (h : t.Housed d) {a : Affected} (ha : a ∈ t.affected key inputs) :
    a.Seated d := by
  obtain ⟨p, hp, hap⟩ := List.mem_flatMap.mp ha
  obtain ⟨hlt, hkind⟩ := h.seated p hp a.node (Part.rendered_of_mem_affected hap)
  have hderived : (p.derived (fun _ => none) .empty).held? = some (a.derived (fun _ => none) .empty) ∧
      p.kind = a.kind := Part.held?_derived hap
  exact ⟨hlt, hkind.trans hderived.2⟩

theorem Housed.nodup_affected (h : t.Housed d) (key : String) (inputs : Bool) :
    ((t.affected key inputs).map Affected.node).Nodup :=
  h.nodup.sublist (sublist_affected key inputs t)

/-- **What a patch of a housed template counts**: the rendered parts that depend on the key, and those of
them that are stale. -/
theorem Housed.stats_patch (h : t.Housed d) (lookup : Lookup) (missing : MissingKey) (key : String)
    (inputs : Bool) : (patch lookup missing d (t.affected key inputs)).stats =
      ⟨t.dependents key inputs fun _ => true,
        t.dependents key inputs (Part.isStale d lookup missing)⟩ := by
  have hvisited : (t.affected key inputs).length = t.dependents key inputs fun _ => true := by
    rw [← countP_affected (f := fun _ => true) fun _ _ _ _ => rfl, List.countP_true]
  rw [BoundView.stats_patch (fun a ha => h.seats ha) (h.nodup_affected key inputs), hvisited]
  congr 1
  refine countP_affected fun p hp a ha => ?_
  unfold Part.isStale
  rw [Part.rendered_of_mem_affected ha, (Part.held?_derived ha).1, Option.any_some]
  rw [bne, decide_not, beq_eq_decide]

/-- **What was patched is up to date**: the same patch again finds all its nodes hold what they
derive. -/
theorem Housed.held?_patch (h : t.Housed d) (lookup : Lookup) (missing : MissingKey) {a : Affected}
    (ha : a ∈ t.affected key inputs) :
    ((patch lookup missing d (t.affected key inputs)).document.content a.node).held? =
      some (a.derived lookup missing) := by
  rw [(h.patches lookup missing key inputs).2.revised a ha]
  exact (h.seats ha).held?_revise _

/-! ## Rendering -/

/-- Rendering makes new nodes and moves old ones, which hold and hear what they did. -/
theorem retains_mount (context : RenderContext κ) (d : Document κ) (root : NodeId) (t : Template) :
    Retains d (t.mount context d root).document := by
  have hplanted : Retains d (planted context d t) := (Retains.push d .fragment).trans (.plant _ _ _)
  rcases mount_cases context d root t with heq | ⟨cleared, hclear, heq | happend⟩
  · rw [heq]
    exact hplanted
  · rw [heq]
    exact hplanted.clear hclear
  · exact (hplanted.clear hclear).append happend

theorem retains_materialize (context : RenderContext κ) (d : Document κ) (container : NodeId)
    (t : Template) : Retains d (t.materialize context d container).document := by
  rcases materialize_cases context d container t with ⟨_, heq⟩ | heq | ⟨p, seed, _, _, heq⟩
  · rw [heq]
    exact .plant d _ _
  · rw [heq]
    exact .refl d
  · rw [heq]
    exact .pushPlaced d _

/-! ## Fresh templates -/

/-- **A fresh template**: all that depends on a declared key holds what it derives. Exempt nodes may have
any live value. -/
def Fresh (t : Template) (inputs : Bool) (declared : String → Prop) (lookup : Lookup)
    (missing : MissingKey) (exempt : NodeId → Prop) (d : Document κ) : Prop :=
  ∀ key, declared key → ∀ a ∈ t.affected key inputs, (a.kind = 1 → ¬ exempt a.node) →
    (d.content a.node).held? = some (a.derived lookup missing)

variable {declared : String → Prop} {exempt exempt' : NodeId → Prop}

theorem Fresh.mono (h : t.Fresh inputs declared lookup missing exempt d)
    (hexempt : ∀ node, exempt node → exempt' node) :
    t.Fresh inputs declared lookup missing exempt' d :=
  fun key hkey a ha hfirm => h key hkey a ha fun hkind hold => hfirm hkind (hexempt _ hold)

/-- **What is displayed is fresh.** -/
theorem Fresh.of_displays (h : Displays d lookup missing (fun _ _ => False) t) :
    t.Fresh inputs declared lookup missing exempt d := by
  intro key _ a ha _
  obtain ⟨p, hp, hap⟩ := List.mem_flatMap.mp ha
  rw [(h p hp a.node (Part.rendered_of_mem_affected hap)).exact id]
  exact (Part.held?_derived hap).1

/-- What is retained stays fresh. -/
theorem Fresh.retains (h : t.Fresh inputs declared lookup missing exempt d) (hhoused : t.Housed d)
    (hretains : Retains d e) : t.Fresh inputs declared lookup missing exempt e := by
  intro key hkey a ha hfirm
  rw [hretains.held a.node (hhoused.seats ha).lt]
  exact h key hkey a ha hfirm

/-- Other nodes may hold anything. -/
theorem Fresh.of_handles (h : t.Fresh inputs declared lookup missing exempt d)
    (hsame : ∀ node ∈ t.handles, e.content node = d.content node) :
    t.Fresh inputs declared lookup missing exempt e := by
  intro key hkey a ha hfirm
  rw [hsame a.node ((sublist_affected key inputs t).subset (List.mem_map_of_mem ha))]
  exact h key hkey a ha hfirm

/-- **A live value that is assigned** may be stale if the node is exempt, or bound to no declared key. -/
theorem Fresh.assign (h : t.Fresh inputs declared lookup missing exempt d) (hhoused : t.Housed d)
    {node : NodeId} {value : String}
    (hrevises : Revises d node (Content.mapElement fun e => { e with value := some value }) e)
    (hexempt : ∀ node, exempt node → exempt' node)
    (hself : ∀ key, declared key → ∀ a ∈ t.affected key inputs, a.kind = 1 → a.node = node →
      exempt' node) : t.Fresh inputs declared lookup missing exempt' e := by
  intro key hkey a ha hfirm
  rw [hrevises.content]
  split
  · rename_i hnode
    have hseated := hhoused.seats ha
    cases a with
    | text n raw =>
      obtain ⟨old, hold⟩ := eq_text_of_kind hseated.kind
      have hheld := h key hkey _ ha fun hkind => by cases hkind
      rw [hold] at hheld ⊢
      exact hheld
    | input n k => exact absurd (hnode ▸ hself key hkey _ ha rfl hnode) (hfirm rfl)
  · exact h key hkey a ha fun hkind hold => hfirm hkind (hexempt _ hold)

/-- **A patch for a key refreshes a template** that was fresh under a lookup that differs at this key at
most. Nodes that are bound to the key are exempt no more. -/
theorem Fresh.patch (h : t.Fresh inputs declared lookup missing exempt d) (hhoused : t.Housed d)
    (hagree : ∀ k, k ≠ key → lookup' k = lookup k)
    (hexempt : ∀ node, exempt node → exempt' node ∨ node ∈ (t.affected key inputs).map Affected.node) :
    t.Fresh inputs declared lookup' missing exempt'
      (BoundView.patch lookup' missing d (t.affected key inputs)).document := by
  intro other hother b hb hfirm
  obtain ⟨p, hp, hbp⟩ := List.mem_flatMap.mp hb
  by_cases hin : b ∈ t.affected key inputs
  · exact hhoused.held?_patch lookup' missing hin
  · have hnone : b.node ∉ (t.affected key inputs).map Affected.node := by
      intro hmem
      obtain ⟨a, hap, _⟩ :=
        (mem_affected_iff hhoused.nodup hp (Part.rendered_of_mem_affected hbp)).mp hmem
      rw [Part.eq_of_mem_affected hap hbp] at hap
      exact hin (List.mem_flatMap.mpr ⟨p, hp, hap⟩)
    rw [(hhoused.patches lookup' missing key inputs).2.others _ hnone,
      Part.derived_of_not_affected hbp (fun hmem => hin (List.mem_flatMap.mpr ⟨p, hp, hmem⟩)) hagree]
    exact h other hother b hb fun hkind hold => (hexempt _ hold).elim (hfirm hkind) hnone

end Template

end BoundView
