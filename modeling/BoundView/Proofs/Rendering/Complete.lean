import BoundView.Component.Mount
import BoundView.Proofs.Rendering.Patching

/-!
# Complete templates

A template is **complete** for some keys and methods when it names no others: every marker of a text and
every bound element names one of the keys, and every event attribute names, blanks at its ends aside, one
of the methods. The check before rendering refuses a template exactly where it is not complete, and the
first time that something is missing it says what.

A complete template stays complete when its parts get handles, and deriving its nodes anew under a lookup
that knows the keys reports nothing as missing.

Main statements: `violation?_eq_none_iff`, `Complete.place`, `Complete.resolve`, `Complete.traces`.
-/

namespace BoundView

open BoundView.Interpolation (Lookup MissingKey)

/-! ## Parts -/

namespace Part

/-- **What keeps a part from being refused.** -/
theorem violation?_eq_none_iff {declared known : String → Bool} (p : Part) :
    p.violation? declared known = none ↔
      (∀ key ∈ p.keys, declared key = true) ∧ (∀ key, p.modelKey? = some key → declared key = true) ∧
        ∀ event ∈ p.events, known (Text.trimmed event.2) = true := by
  cases p with
  | comment raw => simp [violation?, keys, modelKey?, events, attributes]
  | text raw rendered => simp [violation?, keys, modelKey?, events, attributes]
  | element tag attributes rendered =>
    have hkeys : (element tag attributes rendered).keys = [] := rfl
    unfold violation?
    dsimp only
    rw [hkeys]
    split
    case h_1 name hfind =>
      -- the first method that is not known refutes that all are
      have hunknown : known name = false := by simpa using List.find?_some hfind
      obtain ⟨event, hevent, rfl⟩ := List.mem_map.mp (List.mem_of_find?_eq_some hfind)
      refine iff_of_false (by simp) fun ⟨_, _, hknown⟩ => ?_
      exact absurd (hunknown.symm.trans (hknown event hevent)) Bool.false_ne_true
    case h_2 hfind =>
      have hknown : ∀ event ∈ (element tag attributes rendered).events,
          known (Text.trimmed event.2) = true := by
        intro event hevent
        simpa using List.find?_eq_none.mp hfind _ (List.mem_map_of_mem hevent)
      cases hmodel : (element tag attributes rendered).modelKey? with
      | none => simpa using hknown
      | some key =>
        have hfilter : (some key).filter (!declared ·) = none ↔ declared key = true := by
          simp [Option.filter]
        rw [Option.map_eq_none_iff, hfilter]
        constructor
        · intro hdeclared
          refine ⟨fun _ h => absurd h List.not_mem_nil, ?_, hknown⟩
          rintro _ ⟨⟩
          exact hdeclared
        · intro h
          exact h.2.1 key rfl

theorem modelKey?_withRendered (p : Part) (node : Dom.NodeId) :
    (p.withRendered node).modelKey? = p.modelKey? := by
  cases p <;> rfl

theorem keys_withRendered (p : Part) (node : Dom.NodeId) : (p.withRendered node).keys = p.keys := by
  cases p <;> rfl

theorem events_withRendered (p : Part) (node : Dom.NodeId) :
    (p.withRendered node).events = p.events := by
  cases p <;> rfl

/-- Deriving the node of a part anew is traced as making it. -/
theorem traces_of_mem_affected {key : String} {inputs : Bool} {p : Part} {a : Affected}
    (h : a ∈ p.affected key inputs) (lookup : Lookup) (missing : MissingKey) :
    a.traces lookup missing = p.traces lookup missing := by
  cases p with
  | comment raw => cases h
  | text raw rendered =>
    cases rendered with
    | none => cases h
    | some node =>
      rw [(mem_affected_text.mp h).2]
      rfl
  | element tag attributes rendered =>
    cases rendered with
    | none => cases h
    | some node =>
      obtain ⟨⟨_, hkey⟩, rfl⟩ := mem_affected_element.mp h
      show boundTraces lookup key = List.flatMap (boundTraces lookup) (Option.toList _)
      rw [hkey]
      exact (List.append_nil _).symm

end Part

/-! ## Templates -/

namespace Template

/-- **Complete**: a template that names only these keys and these methods. -/
structure Complete (t : Template) (keys methods : List String) : Prop where
  /-- Every marker of a text. -/
  marked : ∀ p ∈ t.preorder, ∀ key ∈ p.keys, key ∈ keys
  /-- Every element that is bound to a key. -/
  bound : ∀ p ∈ t.preorder, ∀ key, p.modelKey? = some key → key ∈ keys
  /-- Every event attribute, blanks at the ends of its value aside. -/
  called : ∀ p ∈ t.preorder, ∀ event ∈ p.events, Text.trimmed event.2 ∈ methods

variable {t : Template} {keys methods : List String}

/-- **A template is refused exactly where it is not complete.** -/
theorem violation?_eq_none_iff {declared known : String → Bool}
    (hdeclared : ∀ key, declared key = true ↔ key ∈ keys)
    (hknown : ∀ name, known name = true ↔ name ∈ methods) (t : Template) :
    t.violation? declared known = none ↔ t.Complete keys methods := by
  unfold violation?
  simp only [List.findSome?_eq_none_iff, Part.violation?_eq_none_iff, hdeclared, hknown]
  constructor
  · intro h
    exact ⟨fun p hp => (h p hp).1, fun p hp => (h p hp).2.1, fun p hp => (h p hp).2.2⟩
  · intro h p hp
    exact ⟨h.marked p hp, h.bound p hp, h.called p hp⟩

/-- Placing gives parts handles and changes nothing else. -/
theorem exists_of_mem_place {base : Nat} {p : Part} (hp : p ∈ (t.place base).preorder) :
    ∃ q ∈ t.preorder, p = q ∨ ∃ node, p = q.withRendered node := by
  induction t generalizing base with
  | nil => cases hp
  | node q children rest ihc ihr =>
    unfold place at hp
    split at hp
    · rcases List.mem_cons.mp hp with rfl | hp
      · exact ⟨q, List.mem_cons_self, .inr ⟨base, rfl⟩⟩
      rcases List.mem_append.mp hp with hp | hp
      · obtain ⟨r, hr, hpr⟩ := ihc hp
        exact ⟨r, List.mem_cons_of_mem _ (List.mem_append_left _ hr), hpr⟩
      · obtain ⟨r, hr, hpr⟩ := ihr hp
        exact ⟨r, List.mem_cons_of_mem _ (List.mem_append_right _ hr), hpr⟩
    · rcases List.mem_cons.mp hp with rfl | hp
      · exact ⟨p, List.mem_cons_self, .inl rfl⟩
      rcases List.mem_append.mp hp with hp | hp
      · exact ⟨p, List.mem_cons_of_mem _ (List.mem_append_left _ hp), .inl rfl⟩
      · obtain ⟨r, hr, hpr⟩ := ihr hp
        exact ⟨r, List.mem_cons_of_mem _ (List.mem_append_right _ hr), hpr⟩

namespace Complete

/-- **A complete template stays complete** when its parts get handles. -/
theorem place (h : t.Complete keys methods) (base : Nat) :
    (t.place base).Complete keys methods := by
  refine ⟨fun p hp => ?_, fun p hp => ?_, fun p hp => ?_⟩
  all_goals obtain ⟨q, hq, rfl | ⟨node, rfl⟩⟩ := exists_of_mem_place hp
  · exact h.marked p hq
  · rw [Part.keys_withRendered]
    exact h.marked q hq
  · exact h.bound p hq
  · rw [Part.modelKey?_withRendered]
    exact h.bound q hq
  · exact h.called p hq
  · rw [Part.events_withRendered]
    exact h.called q hq

section

variable {lookup : Lookup} (h : t.Complete keys methods)
  (hlookup : ∀ key ∈ keys, (lookup key).isSome = true)

include h hlookup

/-- **Resolving a text of a complete template** leaves no marker without an answer. -/
theorem resolve {raw : String} {rendered : Option Dom.NodeId}
    (hp : Part.text raw rendered ∈ t.preorder) (missing : MissingKey) :
    (Interpolation.resolve lookup missing raw).missing = [] := by
  rw [Interpolation.missing_resolve]
  refine List.filter_eq_nil_iff.mpr fun key hkey => ?_
  rw [Option.isNone_iff_eq_none]
  intro hnone
  have hsome := hlookup key (h.marked _ hp key hkey)
  rw [hnone] at hsome
  cases hsome

/-- **Deriving the node of a part** of a complete template warns of nothing. -/
theorem traces {p : Part} (hp : p ∈ t.preorder) (missing : MissingKey) :
    p.traces lookup missing = [] := by
  cases p with
  | comment raw => rfl
  | text raw rendered =>
    show ((Interpolation.resolve lookup missing raw).missing).map _ = []
    rw [h.resolve hlookup hp]
    rfl
  | element tag attributes rendered =>
    show List.flatMap (boundTraces lookup) (Option.toList _) = []
    cases hkey : Part.modelKey? (.element tag attributes rendered) with
    | none => rfl
    | some key =>
      have hsome := hlookup key (h.bound _ hp key hkey)
      simp [boundTraces, hsome]

end

end Complete

end Template

end BoundView
