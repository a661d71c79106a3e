import BoundView.Dom.Markup
import BoundView.Proofs.Markup.Sound
import BoundView.Proofs.Tree.Planting
import BoundView.Proofs.Tree.Walks

/-!
# Documents that operations reach

An operation is asked of a document with any node numbers and any texts. It may be met, refused with
a fault or an error, or met in part: a parse that fails leaves the nodes made before it failed, and
nodes parsed for a target that takes no children stay in a fragment of their own. `perform` is the
document after all that.

Main statement: `coherent_of_operations`, every document that operations reach from the empty one is
coherent, and every walk over it comes to its end before its bound.
-/

namespace BoundView.Dom

open BoundView.Markup (Nodes Parsed)
open Relation (TransGen)

/-! ## Edits of what a node holds -/

namespace Attributes

theorem names_set (attributes : Attributes) (name value : String) :
    (attributes.set name value).names =
      if name ∈ attributes.names then attributes.names else attributes.names ++ [name] := by
  unfold names
  induction attributes with
  | nil => rfl
  | cons a rest ih =>
    unfold set
    by_cases ha : a.name = name
    · rw [if_pos ha, if_pos (List.mem_map.mpr ⟨a, List.mem_cons_self, ha⟩), List.map_cons,
        List.map_cons, ha]
    · rw [if_neg ha, List.map_cons, ih, List.map_cons]
      by_cases hrest : name ∈ rest.map Attribute.name
      · rw [if_pos hrest, if_pos (List.mem_cons_of_mem _ hrest)]
      · rw [if_neg hrest, if_neg fun hm => (List.mem_cons.mp hm).elim (fun he => ha he.symm) hrest,
          List.cons_append]

theorem nodup_names_set {attributes : Attributes} (h : attributes.names.Nodup)
    (name value : String) : (attributes.set name value).names.Nodup := by
  rw [names_set]
  split
  · exact h
  · rename_i hnew
    refine List.nodup_append.mpr ⟨h, List.pairwise_singleton _ _, fun a ha b hb heq => hnew ?_⟩
    rw [List.mem_singleton] at hb
    rw [← hb, ← heq]
    exact ha

/-- A new attribute is set behind the others. -/
theorem set_of_not_mem {attributes : Attributes} {name : String}
    (h : name ∉ attributes.names) (value : String) :
    attributes.set name value = attributes ++ [⟨name, value⟩] := by
  induction attributes with
  | nil => rfl
  | cons a rest ih =>
    simp only [Attributes.names, List.map_cons, List.mem_cons, not_or] at h
    rw [Attributes.set, if_neg (Ne.symm h.1), ih h.2]
    rfl

theorem nodup_names_remove {attributes : Attributes} (h : attributes.names.Nodup)
    (name : String) : (attributes.remove name).names.Nodup := by
  unfold names remove at *
  exact h.sublist (List.filter_sublist.map _)

end Attributes

namespace Document

variable {κ : Type} {d e : Document κ}

/-- A change of one node's content, of the same kind and with different names of attributes, keeps
coherence. -/
theorem Coherent.setContent (h : d.Coherent) (id : NodeId) {f : Content → Content}
    (hkind : ∀ c, (f c).kind = c.kind)
    (hnames : ∀ c, c.attributes.names.Nodup → (f c).attributes.names.Nodup) :
    (d.modify id fun n => { n with content := f n.content }).Coherent := by
  have hcontent : ∀ x, (d.modify id fun n => { n with content := f n.content }).content x =
      d.content x ∨ (d.modify id fun n => { n with content := f n.content }).content x =
        f (d.content x) := by
    intro x
    rw [content_modify]
    split
    · unfold content
      cases d.nodes[x]? with
      | none => exact .inl rfl
      | some n => exact .inr rfl
    · exact .inl rfl
  refine h.of_sameLinks (d.sameLinks_modify id (fun _ => rfl) fun _ => rfl) ?_ ?_
  · intro x
    rcases hcontent x with hx | hx
    · rw [hx]
    · rw [hx, hkind]
  · intro x
    rcases hcontent x with hx | hx
    · rw [hx]
      exact h.names x
    · rw [hx]
      exact hnames _ (h.names x)

theorem Coherent.modifyElement (h : d.Coherent) (id : NodeId) {f : Element → Element}
    (hnames : ∀ e : Element, e.attributes.names.Nodup → (f e).attributes.names.Nodup) :
    (d.modifyElement id f).Coherent := by
  refine h.setContent id ?_ ?_
  · intro c
    cases c <;> rfl
  · intro c hc
    cases c with
    | element e => exact hnames e hc
    | _ => exact hc

/-- Coherence does not look at listeners. -/
theorem Coherent.setListeners (h : d.Coherent) (id : NodeId) (g : Node κ → List (Listener κ))
    (next : Nat) :
    ({ d.modify id fun n => { n with listeners := g n } with nextListener := next } :
      Document κ).Coherent := by
  have same : SameContent d (d.modify id fun n => { n with listeners := g n }) :=
    d.sameContent_modify id fun _ => rfl
  have links : SameLinks d (d.modify id fun n => { n with listeners := g n }) :=
    d.sameLinks_modify id (fun _ => rfl) fun _ => rfl
  refine h.of_sameLinks ⟨links.size, links.parent?, links.children⟩ ?_ ?_
  · intro x
    exact congrArg Content.kind (same.content x)
  · intro x
    have hx := h.names x
    rw [← same.content x] at hx
    exact hx

/-! ## Nodes from markup -/

theorem map_content_plain (nodes : Nodes) :
    (nodes.map (Seed.plain (κ := κ))).map Seed.content = nodes := by
  induction nodes with
  | nil => rfl
  | node c children rest ihc ihr =>
    show Forest.node c _ _ = _
    rw [ihc, ihr]

/-- **What a parse builds keeps coherence**, whether the parse succeeds or not. -/
theorem Coherent.build (h : d.Coherent) {parsed : Parsed} (hnodes : parsed.nodes.Sound)
    (horphan : ∀ e ∈ parsed.orphan, e.attributes.names.Nodup) : (d.build parsed).Coherent := by
  have hgraft : (d.graft parsed.nodes).Coherent := by
    have hpush : (d.push .fragment).Coherent := h.push List.nodup_nil
    refine hpush.plant ?_ ?_ ?_
    · rw [size_push]
      exact Nat.lt_succ_self _
    · rw [content_push, if_pos rfl]
      rfl
    · rw [map_content_plain]
      exact hnodes
  unfold Document.build
  dsimp only
  split
  · rename_i e he
    exact hgraft.push (horphan e he)
  · exact hgraft

theorem Coherent.parseFragment (h : d.Coherent) (source : String) :
    (d.parseFragment source).2.Coherent := by
  obtain ⟨hnodes, horphan⟩ := Markup.parse_sound source.toList
  exact h.build hnodes horphan

section Markup

variable {P : Document κ → Prop}

/-- What holds after parsing, and is kept when nodes are appended, holds after markup was appended. -/
theorem appendMarkup_of {parent : NodeId} {source : String} (hparse : P (d.parseFragment source).2)
    (happend : ∀ {e f : Document κ} {p c : NodeId}, P e → e.append p c = .ok f → P f) :
    P (d.appendMarkup parent source).2 := by
  unfold Document.appendMarkup
  split
  · rename_i heq
    rw [heq] at hparse
    exact hparse
  · rename_i heq
    rw [heq] at hparse
    split
    · exact hparse
    · rename_i hok
      exact happend hparse hok

/-- The same for markup that is put in the place of children. -/
theorem setInnerHtml_of {id : NodeId} {source : String} (hparse : P (d.parseFragment source).2)
    (hclear : ∀ {e f : Document κ} {p : NodeId}, P e → e.clear p = .ok f → P f)
    (happend : ∀ {e f : Document κ} {p c : NodeId}, P e → e.append p c = .ok f → P f) :
    P (d.setInnerHtml id source).2 := by
  unfold Document.setInnerHtml
  split
  · rename_i heq
    rw [heq] at hparse
    exact hparse
  · rename_i heq
    rw [heq] at hparse
    split
    · exact hparse
    · rename_i hcleared
      split
      · exact hclear hparse hcleared
      · rename_i hok
        exact happend (hclear hparse hcleared) hok

end Markup

theorem Coherent.appendMarkup (h : d.Coherent) (parent : NodeId) (source : String) :
    (d.appendMarkup parent source).2.Coherent :=
  appendMarkup_of (h.parseFragment source) fun h hok => h.append hok

theorem Coherent.setInnerHtml (h : d.Coherent) (id : NodeId) (source : String) :
    (d.setInnerHtml id source).2.Coherent :=
  setInnerHtml_of (h.parseFragment source) (fun h hok => h.clear hok) fun h hok => h.append hok

end Document

/-! ## Operations -/

/-- **What can be asked of a document**, with node numbers that may be of no node. -/
inductive Operation (κ : Type) where
  | createElement (tag : String)
  | createText (data : String)
  | createComment (data : String)
  | createFragment
  | append (parent child : NodeId)
  | remove (parent child : NodeId)
  | clear (id : NodeId)
  | setData (id : NodeId) (data : String)
  | setAttribute (id : NodeId) (name value : String)
  | removeAttribute (id : NodeId) (name : String)
  | setValue (id : NodeId) (value : String)
  | parseFragment (source : String)
  | appendMarkup (parent : NodeId) (source : String)
  | setInnerHtml (id : NodeId) (source : String)
  | listen (id : NodeId) (type : String) (action : κ)
  | unlisten (id : NodeId) (listener : Nat)

namespace Document

variable {κ : Type} {d e : Document κ}

/-- The document after an edit; a fault leaves it as it was. -/
def orSame (d : Document κ) : Except Fault (Document κ) → Document κ
  | .ok e => e
  | .error _ => d

/-- **The document after an operation**, met or refused. -/
def perform (d : Document κ) : Operation κ → Document κ
  | .createElement tag => d.push (.element (.ofTag tag))
  | .createText data => d.push (.text data)
  | .createComment data => d.push (.comment data)
  | .createFragment => d.push .fragment
  | .append parent child => d.orSame (d.append parent child)
  | .remove parent child => d.orSame ((d.remove parent child).map Prod.snd)
  | .clear id => d.orSame (d.clear id)
  | .setData id data => d.orSame ((d.setData id data).map Prod.snd)
  | .setAttribute id name value => d.orSame (d.setAttribute id name value)
  | .removeAttribute id name => d.orSame ((d.removeAttribute id name).map Prod.snd)
  | .setValue id value => d.orSame ((d.setValue id value).map Prod.snd)
  | .parseFragment source => (d.parseFragment source).2
  | .appendMarkup parent source => (d.appendMarkup parent source).2
  | .setInnerHtml id source => (d.setInnerHtml id source).2
  | .listen id type action => (d.listen id type action).2
  | .unlisten id listener => d.orSame ((d.unlisten id listener).map Prod.snd)

section OrSame

variable {P : Document κ → Prop}

/-- What holds of a document and of what an edit makes of it holds after the edit, met or refused. -/
theorem orSame_of (h : P d) {r : Except Fault (Document κ)} (hr : ∀ e, r = .ok e → P e) :
    P (d.orSame r) := by
  cases r with
  | error f => exact h
  | ok e => exact hr e rfl

/-- The same for an edit that depends on something that may be missing. -/
theorem orSame_map_of (h : P d) {α : Type} {r : Except Fault α} {f : α → Document κ}
    (hf : ∀ a, r = .ok a → P (f a)) : P (d.orSame (r.map f)) := by
  cases r with
  | error e => exact h
  | ok a => exact hf a rfl

/-- The same for an edit that answers something besides. -/
theorem orSame_map_snd_of (h : P d) {α β : Type} {r : Except Fault α} {f : α → β × Document κ}
    (hf : ∀ a, P (f a).2) : P (d.orSame ((r.map f).map Prod.snd)) := by
  refine orSame_map_of h fun b hb => ?_
  cases r with
  | error e => cases hb
  | ok a =>
    cases hb
    exact hf a

end OrSame

/-- **One operation keeps coherence.** -/
theorem Coherent.perform (h : d.Coherent) (op : Operation κ) : (d.perform op).Coherent := by
  cases op with
  | createElement tag => exact h.push List.nodup_nil
  | createText data => exact h.push List.nodup_nil
  | createComment data => exact h.push List.nodup_nil
  | createFragment => exact h.push List.nodup_nil
  | append parent child => exact orSame_of h fun e he => h.append he
  | remove parent child => exact orSame_map_of h fun r hr => h.remove hr
  | clear id => exact orSame_of h fun e he => h.clear he
  | setData id data =>
    refine orSame_map_snd_of h fun n => ?_
    split
    · split
      · exact h
      · refine h.setContent id ?_ ?_
        · intro c
          cases c <;> rfl
        · intro c hc
          cases c <;> exact hc
    · exact h
  | setAttribute id name value =>
    refine orSame_map_of h fun n _ => ?_
    exact h.modifyElement id fun e he => Attributes.nodup_names_set he name value
  | removeAttribute id name =>
    refine orSame_map_snd_of h fun n => ?_
    exact h.modifyElement id fun e he => Attributes.nodup_names_remove he name
  | setValue id value =>
    refine orSame_map_snd_of h fun n => ?_
    split
    · split
      · exact h
      · exact h.modifyElement id fun e he => he
    · exact h
  | parseFragment source => exact h.parseFragment source
  | appendMarkup parent source => exact h.appendMarkup parent source
  | setInnerHtml id source => exact h.setInnerHtml id source
  | listen id type action => exact h.setListeners id _ _
  | unlisten id listener =>
    refine orSame_map_snd_of h fun n => ?_
    exact h.setListeners id (fun n => n.listeners.filter (·.id != listener)) d.nextListener

theorem Coherent.setData (h : d.Coherent) {id : NodeId} {data : String} {r : Bool × Document κ}
    (hset : d.setData id data = .ok r) : r.2.Coherent := by
  have hperform := h.perform (.setData id data)
  simp only [Document.perform, hset] at hperform
  exact hperform

theorem Coherent.setValue (h : d.Coherent) {id : NodeId} {value : String} {r : Bool × Document κ}
    (hset : d.setValue id value = .ok r) : r.2.Coherent := by
  have hperform := h.perform (.setValue id value)
  simp only [Document.perform, hset] at hperform
  exact hperform

theorem coherent_empty : (empty : Document κ).Coherent where
  root := rfl
  parent_lt {c p} hp := by
    unfold parent? empty at hp
    cases c <;> cases hp
  mem_children p c := by
    unfold children parent? empty
    cases p <;> cases c <;> exact ⟨fun hc => (nomatch hc), fun hc => (nomatch hc)⟩
  nodup_children p := by
    unfold children empty
    cases p <;> exact List.nodup_nil
  container p hp := by
    unfold children empty at hp
    cases p <;> exact absurd rfl hp
  acyclic id hid := by
    obtain ⟨p, hp, _⟩ := transGen_link_iff.mp hid
    unfold parent? empty at hp
    cases id <;> cases hp
  fragment id _ := by
    unfold parent? empty
    cases id <;> rfl
  names id := by
    unfold content empty
    cases id <;> exact List.nodup_nil

/-- **The walks over a document come to their end**: with more fuel than their bound they give the
same. -/
structure WalksEnd (d : Document κ) : Prop where
  upward : ∀ id extra, d.climb (d.size + extra) (d.parent? id) = d.ancestors id
  /-- The walk upward meets what is above, and nothing else. -/
  above : ∀ id a, a ∈ d.ancestors id ↔ TransGen d.Link id a
  downward : ∀ id extra, d.drain (d.size + extra) (d.children id) = d.descendants id
  /-- Texts and markup are read from these trees. -/
  trees : ∀ ids extra, d.grow (d.size + extra) ids = d.subtrees ids
  /-- What is read from the trees follows the children of every node, however deep. -/
  contents : ∀ id ids, d.contents (id :: ids) =
    .node (d.content id) (d.contents (d.children id)) (d.contents ids)

theorem Coherent.walksEnd (h : d.Coherent) : d.WalksEnd where
  upward := h.climb_add_size
  above _ _ := h.mem_ancestors_iff
  downward := h.drain_add_size
  trees := h.grow_add_size
  contents id ids := by
    unfold Document.contents
    rw [h.subtrees_cons]
    rfl

/-- **The document that operations lead to**, from the empty one on. -/
def reached (ops : List (Operation κ)) : Document κ := ops.foldl perform empty

theorem Coherent.foldl_perform (h : d.Coherent) (ops : List (Operation κ)) :
    (ops.foldl Document.perform d).Coherent := by
  induction ops generalizing d with
  | nil => exact h
  | cons op ops ih => exact ih (h.perform op)

theorem coherent_reached (ops : List (Operation κ)) : (reached ops : Document κ).Coherent :=
  coherent_empty.foldl_perform ops

/-- **Every document that operations reach is coherent**, the nodes that it lists as children are
there, each listed by its parent once and by no other node, and the walks over it end. -/
theorem coherent_of_operations (ops : List (Operation κ)) :
    (reached ops : Document κ).Coherent ∧
      (∀ p c, c ∈ (reached ops : Document κ).children p → c < (reached ops : Document κ).size) ∧
      (∀ p c, ((reached ops : Document κ).children p).count c =
        if (reached ops : Document κ).parent? c = some p then 1 else 0) ∧
      (reached ops : Document κ).WalksEnd := by
  have h : (reached ops : Document κ).Coherent := coherent_reached ops
  refine ⟨h, ?_, h.count_children, h.walksEnd⟩
  intro p c hc
  exact h.child_lt hc

end Document

end BoundView.Dom
