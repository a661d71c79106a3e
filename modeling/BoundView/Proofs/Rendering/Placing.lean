import BoundView.Proofs.Rendering.Derived
import BoundView.Proofs.Tree.Standing

/-!
# Handles and the nodes they name

Rendering plants the forest of a template and numbers its parts in the same order. The handles are
therefore consecutive numbers, no two parts share a node, and the node of a handle is the one that
its part was made into. Which numbers these are, and how the nodes are linked, does not depend on
what the nodes hold.

Main statements: `handles_place`, `exists_node_of_standing`, `links_of_standing`.
-/

namespace BoundView.Template

open BoundView.Dom (Content Document NodeId Seed)

/-- **Bare**: nothing lies under a part that has no node. -/
def Bare : Template → Prop
  | .nil => True
  | .node p children rest => (p.isRendered = false → children = .nil) ∧ Bare children ∧ Bare rest

/-- Compiled templates are bare. -/
theorem bare_ofContents (f : Forest Content) : (ofContents f).Bare := by
  induction f with
  | nil => trivial
  | node c children rest ihc ihr =>
    cases c with
    | element e => exact ⟨fun h => Bool.noConfusion h, ihc, ihr⟩
    | text data =>
      unfold ofContents
      split
      · exact ihr
      · exact ⟨fun _ => rfl, trivial, ihr⟩
    | comment data => exact ⟨fun _ => rfl, trivial, ihr⟩
    | document => exact ihr
    | fragment => exact ihr

theorem size_seeds {κ : Type} (context : RenderContext κ) (t : Template) :
    (t.seeds context).size = t.renderedSize := by
  induction t with
  | nil => rfl
  | node p children rest ihc ihr =>
    have hp := p.seed?_isSome context
    unfold seeds renderedSize
    cases hseed : p.seed? context with
    | none =>
      rw [hseed] at hp
      rw [← hp]
      dsimp only [Option.isSome_none]
      rw [if_neg Bool.false_ne_true, ihr, Nat.zero_add]
    | some seed =>
      rw [hseed] at hp
      rw [← hp]
      dsimp only [Option.isSome_some]
      rw [if_pos rfl, ← ihc, ← ihr]
      rfl

theorem rendered_withRendered {p : Part} (h : p.isRendered = true) (node : NodeId) :
    (p.withRendered node).rendered = some node := by
  cases p with
  | comment raw => cases h
  | text raw rendered => rfl
  | element tag attributes rendered => rfl

/-- **Handles are consecutive numbers.** -/
theorem handles_place {t : Template} (h : t.Bare) (base : Nat) :
    (t.place base).handles = List.range' base t.renderedSize := by
  induction t generalizing base with
  | nil => rfl
  | node p children rest ihc ihr =>
    obtain ⟨hbare, hchildren, hrest⟩ := h
    rw [place, renderedSize]
    by_cases hp : p.isRendered = true
    · rw [if_pos hp, if_pos hp]
      show List.filterMap Part.rendered (_ :: (_ ++ _)) = _
      rw [List.filterMap_cons, rendered_withRendered hp, List.filterMap_append]
      show base :: ((place (base + 1) children).handles ++ (place _ rest).handles) = _
      rw [ihc hchildren, ihr hrest, List.range'_append_1, Nat.add_assoc 1, Nat.add_comm 1,
        List.range'_succ]
    · have hcomment : p.isRendered = false := Bool.not_eq_true _ ▸ hp
      have hnone : p.rendered = none := by
        cases p with
        | comment raw => rfl
        | text raw rendered => exact absurd rfl hp
        | element tag attributes rendered => exact absurd rfl hp
      rw [if_neg hp, if_neg hp, hbare hcomment]
      show List.filterMap Part.rendered (p :: (place base rest).preorder) = _
      rw [List.filterMap_cons, hnone, Nat.zero_add]
      exact ihr hrest base

theorem nodup_handles_place {t : Template} (h : t.Bare) (base : Nat) :
    (t.place base).handles.Nodup := by
  rw [handles_place h]
  exact List.nodup_range'

theorem mem_handles_place {t : Template} (h : t.Bare) {base x : Nat} :
    x ∈ (t.place base).handles ↔ base ≤ x ∧ x < base + t.renderedSize := by
  rw [handles_place h, List.mem_range'_1]

/-- No two parts share a node. -/
theorem eq_of_rendered {t : Template} (h : t.handles.Nodup) {node : NodeId} {p q : Part}
    (hp : p ∈ t.preorder) (hpn : p.rendered = some node) (hq : q ∈ t.preorder)
    (hqn : q.rendered = some node) : p = q := by
  unfold handles at h
  generalize t.preorder = parts at h hp hq
  induction parts with
  | nil => cases hp
  | cons r rs ih =>
    have other : ∀ s ∈ rs, s.rendered = some node → r.rendered ≠ some node := by
      intro s hs hsn hrn
      rw [List.filterMap_cons, hrn] at h
      exact (List.nodup_cons.mp h).1 (List.mem_filterMap.mpr ⟨s, hs, hsn⟩)
    have hrs : (rs.filterMap Part.rendered).Nodup :=
      h.sublist ((List.sublist_cons_self r rs).filterMap _)
    rcases List.mem_cons.mp hp with hpr | hp'
    · rcases List.mem_cons.mp hq with hqr | hq'
      · exact hpr.trans hqr.symm
      · exact absurd (hpr ▸ hpn) (other q hq' hqn)
    · rcases List.mem_cons.mp hq with hqr | hq'
      · exact absurd (hqr ▸ hqn) (other p hp' hpn)
      · exact ih hrs hp' hq'

theorem mem_handles {t : Template} {node : NodeId} :
    node ∈ t.handles ↔ ∃ p ∈ t.preorder, p.rendered = some node := List.mem_filterMap

variable {κ : Type} {d e : Document κ} {context context' : RenderContext κ}

/-- **The node of a handle is what its part was made into.** -/
theorem exists_node_of_standing {t : Template} (h : t.Bare) {parent : Option NodeId} {base : Nat}
    (hstanding : d.Standing parent base (t.seeds context)) {p : Part}
    (hp : p ∈ (t.place base).preorder) (hrendered : p.isRendered = true) :
    ∃ node seed first above below, p.rendered = some node ∧ p.seed? context = some seed ∧
      d.nodes[node]? =
        some ⟨seed.content, above, below, Document.numbered first seed.listeners⟩ := by
  induction t generalizing parent base with
  | nil => cases hp
  | node q children rest ihc ihr =>
    obtain ⟨hbare, hchildren, hrest⟩ := h
    have hisSome := q.seed?_isSome context
    unfold place at hp
    unfold seeds at hstanding
    by_cases hq : q.isRendered = true
    · rw [if_pos hq] at hp
      rw [hq] at hisSome
      obtain ⟨seed, hseed⟩ := Option.isSome_iff_exists.mp hisSome
      rw [hseed] at hstanding
      obtain ⟨⟨first, hnode⟩, hsc, hsr⟩ := hstanding
      rcases List.mem_cons.mp hp with rfl | hp
      · refine ⟨base, seed, first, _, _, rendered_withRendered hq base, ?_, hnode⟩
        rw [Part.seed?_withRendered, hseed]
      · rcases List.mem_append.mp hp with hp | hp
        · exact ihc hchildren hsc hp
        · rw [size_seeds] at hsr
          exact ihr hrest hsr hp
    · have hcomment : q.isRendered = false := Bool.not_eq_true _ ▸ hq
      rw [hcomment] at hisSome
      rw [Option.isNone_iff_eq_none.mp (Option.isSome_eq_false_iff.mp hisSome)] at hstanding
      rw [if_neg hq, hbare hcomment] at hp
      rcases List.mem_cons.mp hp with rfl | hp
      · exact absurd hrendered hq
      · exact ihr hrest hstanding hp

theorem tops_seeds (context context' : RenderContext κ) (t : Template) (base : Nat) :
    (t.seeds context').tops base = (t.seeds context).tops base := by
  induction t generalizing base with
  | nil => rfl
  | node p children rest _ ihr =>
    have hsome := (p.seed?_isSome context).trans (p.seed?_isSome context').symm
    unfold seeds
    cases hp : p.seed? context with
    | none =>
      rw [hp] at hsome
      rw [Option.isNone_iff_eq_none.mp (Option.isSome_eq_false_iff.mp hsome.symm)]
      exact ihr base
    | some seed =>
      rw [hp] at hsome
      obtain ⟨seed', hp'⟩ := Option.isSome_iff_exists.mp hsome.symm
      rw [hp']
      show base :: _ = base :: _
      rw [ihr, size_seeds, size_seeds]

/-- **The links of the nodes do not depend on what they hold.** -/
theorem links_of_standing {t : Template} {parent : Option NodeId} {base : Nat}
    (hd : d.Standing parent base (t.seeds context)) (he : e.Standing parent base (t.seeds context'))
    {x : Nat} (h1 : base ≤ x) (h2 : x < base + t.renderedSize) :
    e.parent? x = d.parent? x ∧ e.children x = d.children x := by
  induction t generalizing parent base with
  | nil =>
    have h3 : x < base := h2
    omega
  | node p children rest ihc ihr =>
    have hsome := (p.seed?_isSome context).trans (p.seed?_isSome context').symm
    have hrendered := p.seed?_isSome context
    unfold seeds at hd he
    unfold renderedSize at h2
    cases hp : p.seed? context with
    | none =>
      rw [hp] at hd hsome hrendered
      rw [Option.isNone_iff_eq_none.mp (Option.isSome_eq_false_iff.mp hsome.symm)] at he
      rw [← hrendered, Option.isSome_none, if_neg Bool.false_ne_true, Nat.zero_add] at h2
      exact ihr hd he h1 h2
    | some seed =>
      rw [hp] at hd hsome hrendered
      obtain ⟨seed', hp'⟩ := Option.isSome_iff_exists.mp hsome.symm
      rw [hp'] at he
      rw [← hrendered, Option.isSome_some, if_pos rfl] at h2
      obtain ⟨⟨first, hdn⟩, hdc, hdr⟩ := hd
      obtain ⟨⟨first', hen⟩, hec, her⟩ := he
      rw [size_seeds] at hdr her
      rcases Nat.lt_or_ge x (base + 1 + renderedSize children) with hlt | hge
      · rcases Nat.eq_or_lt_of_le h1 with rfl | hgt
        · rw [Document.parent?_of_getElem? hdn, Document.parent?_of_getElem? hen,
            Document.children_of_getElem? hdn, Document.children_of_getElem? hen]
          exact ⟨rfl, tops_seeds context context' children _⟩
        · exact ihc hdc hec hgt hlt
      · exact ihr hdr her hge (by omega)

end BoundView.Template
