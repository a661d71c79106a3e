import BoundView.Proofs.Rendering.Patching
import BoundView.Proofs.Tree.Edits
import BoundView.Proofs.Tree.Extending

/-!
# Rendering displays a template

Rendering a template in the place of a node's children plants its forest in a new fragment and moves
it under the node. Emptying and moving change no contents and no listeners, so the template is
displayed under the lookup that it was rendered with.

What the lookup answers decides nothing but the contents of the rendered nodes: the links and all
other nodes come out the same under any other lookup.

Main statements: `mount_displays`, `mount_congr`, `mount_fault_eq_none`.
-/

namespace BoundView.Template

open BoundView.Dom (Content Document NodeId Seed)
open BoundView.Dom.Document (Coherent Extends SameContent SameLinks SameListeners)

variable {κ : Type} {d : Document κ} {context context' : RenderContext κ} {root : NodeId}
  {t : Template}

/-- The document with the forest of a template in a new fragment. -/
def planted (context : RenderContext κ) (d : Document κ) (t : Template) : Document κ :=
  (d.push .fragment).plant d.size (t.seeds context)

theorem fragment_lt (d : Document κ) : d.size < (d.push .fragment).size := by
  rw [Document.size_push]
  exact Nat.lt_succ_self _

theorem size_planted (context : RenderContext κ) (d : Document κ) (t : Template) :
    (planted context d t).size = d.size + 1 + t.renderedSize := by
  unfold planted
  rw [Document.size_plant, Document.size_push, size_seeds]

theorem standing_planted (context : RenderContext κ) (d : Document κ) (t : Template) :
    (planted context d t).Standing (some d.size) (d.size + 1) (t.seeds context) := by
  have h := Document.standing_plant (d.push .fragment) (fragment_lt d) (t.seeds context)
  rw [Document.size_push] at h
  exact h

theorem content_planted_fragment (context : RenderContext κ) (d : Document κ) (t : Template) :
    (planted context d t).content d.size = .fragment := by
  unfold planted
  rw [Document.content_plant _ _ _ (fragment_lt d), Document.content_push, if_pos rfl]

theorem children_planted_fragment (context : RenderContext κ) (d : Document κ) (t : Template) :
    (planted context d t).children d.size = (t.seeds context).tops (d.size + 1) := by
  unfold planted
  rw [Document.children_plant _ _ _ (fragment_lt d), if_pos rfl, Document.size_push,
    Document.children_push]
  show (d.nodes[d.size]?).elim [] _ ++ _ = _
  rw [d.getElem?_eq_none_of_size_le (Nat.le_refl _)]
  rfl

/-! ## The steps of mounting -/

/-- **The document that rendering leaves**: the forest is planted under a node that can hold it; under
any other, at most the first new node is made, and it stands alone. -/
theorem materialize_cases (context : RenderContext κ) (d : Document κ) (container : NodeId)
    (t : Template) :
    (canHold d container = true ∧
        (t.materialize context d container).document = d.plant container (t.seeds context)) ∨
      (t.materialize context d container).document = d ∨
        ∃ p seed, t.firstRendered? = some p ∧ p.seed? context = some seed ∧
          (t.materialize context d container).document = d.pushPlaced ⟨seed, none, []⟩ := by
  unfold materialize
  split
  · rename_i hholds
    exact .inl ⟨hholds, rfl⟩
  · right
    unfold renderFirst
    cases t.firstRendered? with
    | none => exact .inl rfl
    | some p =>
      dsimp only
      cases hseed : p.seed? context with
      | none => exact .inl rfl
      | some seed => exact .inr ⟨p, seed, rfl, hseed, rfl⟩

/-- The new fragment can hold the forest. -/
theorem materialize_push (context : RenderContext κ) (d : Document κ) (t : Template) :
    materialize context (d.push .fragment) d.size t =
      ⟨planted context d t, t.place (d.size + 1), t.traces context.lookup context.missing,
        none⟩ := by
  have hholds : canHold (d.push .fragment) d.size = true := by
    unfold canHold
    rw [Document.getElem?_push, if_pos rfl]
    rfl
  unfold materialize
  rw [if_pos hholds, Document.size_push]
  rfl

/-- The document that mounting leaves: the forest is planted, then the root may be emptied, and then
the fragment may be appended. -/
theorem mount_cases (context : RenderContext κ) (d : Document κ) (root : NodeId) (t : Template) :
    (t.mount context d root).document = planted context d t ∨
      ∃ cleared, (planted context d t).clear root = .ok cleared ∧
        ((t.mount context d root).document = cleared ∨
          cleared.append root d.size = .ok (t.mount context d root).document) := by
  unfold mount
  dsimp only
  rw [materialize_push]
  dsimp only
  cases (planted context d t).clear root with
  | error f => exact .inl rfl
  | ok cleared =>
    refine .inr ⟨cleared, rfl, ?_⟩
    dsimp only
    cases happend : cleared.append root d.size with
    | error f => exact .inl rfl
    | ok final => exact .inr rfl

/-- **Mounting without a fault**: the forest is planted, the root emptied and the forest moved. -/
theorem mount_steps (h : (t.mount context d root).fault = none) :
    (t.mount context d root).template = t.place (d.size + 1) ∧
      ∃ cleared, (planted context d t).clear root = .ok cleared ∧
        cleared.append root d.size = .ok (t.mount context d root).document := by
  unfold mount at h ⊢
  dsimp only at h ⊢
  rw [materialize_push] at h ⊢
  dsimp only at h ⊢
  cases hclear : (planted context d t).clear root with
  | error f =>
    rw [hclear] at h
    cases h
  | ok cleared =>
    rw [hclear] at h
    dsimp only at h ⊢
    cases happend : cleared.append root d.size with
    | error f =>
      rw [happend] at h
      cases h
    | ok final => exact ⟨rfl, cleared, rfl, happend⟩

/-- Mounting moves the children of the fragment. -/
theorem mount_moves {cleared : Document κ} (hclear : (planted context d t).clear root = .ok cleared)
    (happend : cleared.append root d.size = .ok (t.mount context d root).document) :
    (t.mount context d root).document =
      cleared.moveChildren root d.size (cleared.children d.size) := by
  obtain ⟨_, _, _, _, _, hmoved⟩ := cleared.append_eq_ok happend
  rw [((planted context d t).sameContent_clear hclear).content, content_planted_fragment] at hmoved
  rcases hmoved with ⟨_, hmoved⟩ | ⟨hne, _⟩
  · exact hmoved
  · exact absurd rfl hne

/-- Mounting moves the planted forest and changes neither contents nor listeners. -/
theorem mount_same (h : (t.mount context d root).fault = none) :
    SameContent (planted context d t) (t.mount context d root).document ∧
      SameListeners (planted context d t) (t.mount context d root).document := by
  obtain ⟨_, cleared, hclear, happend⟩ := mount_steps h
  have hcontent := (planted context d t).sameContent_clear hclear
  have hlisteners := Document.sameListeners_clear hclear
  rw [mount_moves hclear happend]
  exact ⟨hcontent.trans (cleared.sameContent_moveChildren _ _ _),
    hlisteners.trans (cleared.sameListeners_moveChildren _ _ _)⟩

/-- **A mounted template is displayed**, every live value firm, and each part that makes a node has a
handle; the node hears what the part gave it. -/
theorem mount_displays (hbare : t.Bare) (h : (t.mount context d root).fault = none) :
    Displays (t.mount context d root).document context.lookup context.missing (fun _ _ => False)
        (t.mount context d root).template ∧
      ∀ p ∈ (t.mount context d root).template.preorder, p.isRendered = true →
        ∃ node seed first, p.rendered = some node ∧ p.seed? context = some seed ∧
          (t.mount context d root).document.listeners node =
            Document.numbered first seed.listeners := by
  obtain ⟨htemplate, _⟩ := mount_steps h
  obtain ⟨hcontent, hlisteners⟩ := mount_same h
  have node : ∀ p ∈ (t.mount context d root).template.preorder, p.isRendered = true →
      ∃ node seed first above below, p.rendered = some node ∧ p.seed? context = some seed ∧
        (planted context d t).nodes[node]? =
          some ⟨seed.content, above, below, Document.numbered first seed.listeners⟩ := by
    intro p hp hrendered
    rw [htemplate] at hp
    exact exists_node_of_standing hbare (standing_planted context d t) hp hrendered
  constructor
  · intro p hp x hx
    have hrendered : p.isRendered = true := by
      cases p with
      | comment raw => cases hx
      | text raw rendered => rfl
      | element tag attributes rendered => rfl
    obtain ⟨y, seed, first, above, below, hy, hseed, hnode⟩ := node p hp hrendered
    obtain rfl : y = x := Option.some.inj (hy.symm.trans hx)
    have hderived : (t.mount context d root).document.content y =
        p.derived context.lookup context.missing := by
      rw [hcontent.content, Document.content_of_getElem? hnode]
      exact Part.content_of_seed? hseed
    refine ⟨?_, congrArg Markup.written hderived, fun _ => hderived⟩
    rw [hcontent.size]
    exact Document.lt_size_of_getElem? _ hnode
  · intro p hp hrendered
    obtain ⟨y, seed, first, above, below, hy, hseed, hnode⟩ := node p hp hrendered
    refine ⟨y, seed, first, hy, hseed, ?_⟩
    rw [hlisteners, Document.listeners_of_getElem? hnode]

/-! ## What the lookup does not decide -/

/-- The planted forest has the same links under any lookup. -/
theorem sameLinks_planted (context context' : RenderContext κ) (d : Document κ) (t : Template) :
    SameLinks (planted context d t) (planted context' d t) := by
  have both : ∀ x, (planted context' d t).parent? x = (planted context d t).parent? x ∧
      (planted context' d t).children x = (planted context d t).children x := by
    intro x
    rcases Nat.lt_or_ge x (d.size + 1) with hold | hnew
    · have hold' : x < (d.push .fragment).size := by
        rw [Document.size_push]
        exact hold
      unfold planted
      rw [Document.parent?_plant _ _ _ hold', Document.parent?_plant _ _ _ hold',
        Document.children_plant _ _ _ hold', Document.children_plant _ _ _ hold',
        tops_seeds context context']
      exact ⟨rfl, rfl⟩
    · rcases Nat.lt_or_ge x (d.size + 1 + t.renderedSize) with hlt | hge
      · exact links_of_standing (standing_planted context d t) (standing_planted context' d t)
          hnew hlt
      · have hnone : ∀ c : RenderContext κ, (planted c d t).nodes[x]? = none := by
          intro c
          refine Document.getElem?_eq_none_of_size_le _ ?_
          rw [size_planted]
          exact hge
        unfold Document.parent? Document.children
        rw [hnone, hnone]
        exact ⟨rfl, rfl⟩
  refine ⟨?_, fun x => (both x).1, fun x => (both x).2⟩
  rw [size_planted, size_planted]

/-- Nodes that no part was made into hold what they held. -/
theorem content_planted (context : RenderContext κ) (d : Document κ) {x : Nat}
    (hbare : t.Bare) (hx : x ∉ (t.place (d.size + 1)).handles) :
    (planted context d t).content x = (d.push .fragment).content x := by
  rw [mem_handles_place hbare] at hx
  rcases Nat.lt_or_ge x (d.size + 1) with hold | hnew
  · unfold planted
    rw [Document.content_plant]
    rw [Document.size_push]
    exact hold
  · have hge : d.size + 1 + t.renderedSize ≤ x := by
      rcases Nat.lt_or_ge x (d.size + 1 + t.renderedSize) with hlt | hge
      · exact absurd ⟨hnew, hlt⟩ hx
      · exact hge
    unfold Document.content
    rw [Document.getElem?_eq_none_of_size_le _ (by rw [size_planted]; exact hge),
      Document.getElem?_eq_none_of_size_le _ (by rw [Document.size_push]; exact hnew)]

/-- The root of a mounted template has the same children before as in the document. -/
theorem children_planted_root (context : RenderContext κ) (t : Template) (hroot : root < d.size) :
    (planted context d t).children root = d.children root := by
  unfold planted
  rw [Document.children_plant _ _ _ (Nat.lt_trans hroot (fragment_lt d)),
    if_neg (Nat.ne_of_lt hroot), List.append_nil, Document.children_push]

/-- **Mounting does not fail** on a node that is there and may have children. -/
theorem mount_fault_eq_none (context : RenderContext κ) (t : Template) (hd : d.Coherent)
    (hroot : root < d.size) (hcontainer : (d.content root).isContainer = true) :
    (t.mount context d root).fault = none := by
  have hextends : Extends d (planted context d t) := d.extends_plant (t.seeds context)
  have hfragment : d.size < (planted context d t).size := by
    rw [size_planted]
    omega
  obtain ⟨cleared, hclear⟩ := hextends.exists_clear hroot
  have happend := hextends.append_eq_ok hd ((planted context d t).sameContent_clear hclear)
    (hextends.parent?_of_clear hd hroot hclear) hroot hcontainer (Nat.le_refl _) hfragment
    (content_planted_fragment context d t)
  unfold mount
  dsimp only
  rw [materialize_push]
  dsimp only
  rw [hclear]
  dsimp only
  rw [happend]

/-- **What the lookup answers decides nothing but what rendered nodes hold.** -/
theorem mount_congr (hbare : t.Bare) (hd : d.Coherent) (hroot : root < d.size)
    (h : (t.mount context d root).fault = none) (h' : (t.mount context' d root).fault = none) :
    SameLinks (t.mount context d root).document (t.mount context' d root).document ∧
      (t.mount context' d root).template = (t.mount context d root).template ∧
        ∀ x, x ∉ (t.mount context d root).template.handles →
          (t.mount context' d root).document.content x =
            (t.mount context d root).document.content x := by
  obtain ⟨htemplate, cleared, hclear, happend⟩ := mount_steps h
  obtain ⟨htemplate', cleared', hclear', happend'⟩ := mount_steps h'
  have hsize := size_planted context d t
  have hbound : ∀ c ∈ (planted context d t).children root, c < (planted context d t).size := by
    intro c hc
    rw [children_planted_root context t hroot] at hc
    rw [hsize]
    exact Nat.lt_of_lt_of_le (hd.child_lt hc) (by omega)
  have hlinks := (sameLinks_planted context context' d t).clear hbound hclear hclear'
  have hcleared := ((planted context d t).sameContent_clear hclear).size
  have hroot' : root < cleared.size := by
    rw [hcleared, hsize]
    exact Nat.lt_of_lt_of_le hroot (by omega)
  have hmoved : ∀ c ∈ cleared.children d.size, c < cleared.size := by
    intro c hc
    rw [(planted context d t).children_clear hclear, if_neg (Nat.ne_of_gt hroot),
      children_planted_fragment] at hc
    have hlt := (Forest.mem_tops hc).2
    rw [size_seeds] at hlt
    rw [hcleared, hsize]
    exact hlt
  refine ⟨?_, htemplate'.trans htemplate.symm, fun x hx => ?_⟩
  · rw [mount_moves hclear happend, mount_moves hclear' happend', hlinks.children]
    exact hlinks.moveChildren hroot' d.size hmoved
  · rw [htemplate] at hx
    rw [(mount_same h).1.content, (mount_same h').1.content, content_planted context d hbare hx,
      content_planted context' d hbare hx]

end BoundView.Template
