import BoundView.Dom.Edit

/-!
# What an edit does to the links of a document

A document keeps each link twice: a node knows its parent, and the parent lists its children. The
laws here read off, for every edit and every node, the parent, the children and the content after
the edit from those before it. Everything that is said later about trees rests on these readings,
and no later proof opens an edit.

Two kinds of edit are told apart. One changes what a node holds and no link at all (`SameLinks`);
the other moves nodes (`moveNode`, `moveChildren`, `clear`, `detach`) and changes what no node holds
(`SameContent`).
-/

namespace BoundView.Dom.Document

variable {κ : Type}

/-- Two documents of one size with the same parent and the same children at every node. -/
structure SameLinks (d e : Document κ) : Prop where
  size : e.size = d.size
  parent? : ∀ id, e.parent? id = d.parent? id
  children : ∀ id, e.children id = d.children id

/-- Two documents of one size whose nodes hold the same. -/
structure SameContent (d e : Document κ) : Prop where
  size : e.size = d.size
  content : ∀ id, e.content id = d.content id

namespace SameLinks

variable {d e f : Document κ}

theorem refl (d : Document κ) : SameLinks d d := ⟨rfl, fun _ => rfl, fun _ => rfl⟩

theorem trans (h : SameLinks d e) (g : SameLinks e f) : SameLinks d f :=
  ⟨g.size.trans h.size, fun id => (g.parent? id).trans (h.parent? id),
    fun id => (g.children id).trans (h.children id)⟩

end SameLinks

namespace SameContent

variable {d e f : Document κ}

theorem refl (d : Document κ) : SameContent d d := ⟨rfl, fun _ => rfl⟩

theorem trans (h : SameContent d e) (g : SameContent e f) : SameContent d f :=
  ⟨g.size.trans h.size, fun id => (g.content id).trans (h.content id)⟩

end SameContent

variable (d : Document κ)

/-! ## Nodes that are there -/

theorem getElem?_eq_none_of_size_le {id : NodeId} (h : d.size ≤ id) : d.nodes[id]? = none :=
  Array.getElem?_eq_none h

theorem lt_size_of_getElem? {id : NodeId} {n : Node κ} (h : d.nodes[id]? = some n) :
    id < d.size := by
  obtain ⟨hid, _⟩ := Array.getElem?_eq_some_iff.mp h
  exact hid

theorem lt_size_of_node {id : NodeId} {n : Node κ} (h : d.node id = .ok n) : id < d.size :=
  d.lt_size_of_getElem? ((d.node_eq_ok_iff).mp h)

theorem exists_node {id : NodeId} (h : id < d.size) : ∃ n, d.nodes[id]? = some n :=
  ⟨d.nodes[id], Array.getElem?_eq_getElem h⟩

theorem lt_size_of_parent? {id p : NodeId} (h : d.parent? id = some p) : id < d.size := by
  unfold parent? at h
  obtain ⟨n, hn, _⟩ := Option.bind_eq_some_iff.mp h
  exact d.lt_size_of_getElem? hn

theorem lt_size_of_mem_children {p c : NodeId} (h : c ∈ d.children p) : p < d.size := by
  unfold children at h
  cases hn : d.nodes[p]? with
  | none => rw [hn] at h; cases h
  | some n => exact d.lt_size_of_getElem? hn

variable {d}

theorem parent?_of_getElem? {id : NodeId} {n : Node κ} (h : d.nodes[id]? = some n) :
    d.parent? id = n.parent := by
  unfold parent?
  rw [h]
  rfl

theorem children_of_getElem? {id : NodeId} {n : Node κ} (h : d.nodes[id]? = some n) :
    d.children id = n.children := by
  unfold children
  rw [h]
  rfl

theorem content_of_getElem? {id : NodeId} {n : Node κ} (h : d.nodes[id]? = some n) :
    d.content id = n.content := by
  unfold content
  rw [h]
  rfl

variable (d)

/-! ## Changing one node -/

theorem parent?_modify (id x : NodeId) (f : Node κ → Node κ) :
    (d.modify id f).parent? x =
      if id = x then (d.nodes[x]?).bind fun n => (f n).parent else d.parent? x := by
  unfold parent?
  rw [getElem?_modify]
  split
  · cases d.nodes[x]? <;> rfl
  · rfl

theorem children_modify (id x : NodeId) (f : Node κ → Node κ) :
    (d.modify id f).children x =
      if id = x then (d.nodes[x]?).elim [] fun n => (f n).children else d.children x := by
  unfold children
  rw [getElem?_modify]
  split
  · cases d.nodes[x]? <;> rfl
  · rfl

theorem content_modify (id x : NodeId) (f : Node κ → Node κ) :
    (d.modify id f).content x =
      if id = x then (d.nodes[x]?).elim .fragment fun n => (f n).content else d.content x := by
  unfold content
  rw [getElem?_modify]
  split
  · cases d.nodes[x]? <;> rfl
  · rfl

/-- A change of what nodes hold and hear keeps all parents. -/
theorem parent?_modify_of_same (id x : NodeId) {f : Node κ → Node κ}
    (h : ∀ n, (f n).parent = n.parent) : (d.modify id f).parent? x = d.parent? x := by
  rw [parent?_modify]
  split
  · simp only [h]
    rfl
  · rfl

/-- A change of what nodes hold and hear keeps all lists of children. -/
theorem children_modify_of_same (id x : NodeId) {f : Node κ → Node κ}
    (h : ∀ n, (f n).children = n.children) : (d.modify id f).children x = d.children x := by
  rw [children_modify]
  split
  · simp only [h]
    rfl
  · rfl

/-- A change of links keeps all contents. -/
theorem sameContent_modify (id : NodeId) {f : Node κ → Node κ}
    (h : ∀ n, (f n).content = n.content) : SameContent d (d.modify id f) := by
  refine ⟨d.size_modify id f, fun x => ?_⟩
  rw [content_modify]
  split
  · simp only [h]
    rfl
  · rfl

theorem sameLinks_modify (id : NodeId) {f : Node κ → Node κ}
    (hparent : ∀ n, (f n).parent = n.parent) (hchildren : ∀ n, (f n).children = n.children) :
    SameLinks d (d.modify id f) :=
  ⟨d.size_modify id f, fun x => d.parent?_modify_of_same id x hparent,
    fun x => d.children_modify_of_same id x hchildren⟩

/-- Giving a node a parent. -/
theorem parent?_setParent {id : NodeId} (hid : id < d.size) (p : Option NodeId) (x : NodeId) :
    (d.modify id fun n => { n with parent := p }).parent? x =
      if x = id then p else d.parent? x := by
  rw [parent?_modify]
  by_cases hx : x = id
  · subst hx
    obtain ⟨n, hn⟩ := d.exists_node hid
    rw [if_pos rfl, if_pos rfl, hn]
    rfl
  · rw [if_neg (fun h => hx h.symm), if_neg hx]

theorem children_setParent (id : NodeId) (p : Option NodeId) (x : NodeId) :
    (d.modify id fun n => { n with parent := p }).children x = d.children x :=
  d.children_modify_of_same id x fun _ => rfl

theorem sameContent_setParent (id : NodeId) (p : Option NodeId) :
    SameContent d (d.modify id fun n => { n with parent := p }) :=
  d.sameContent_modify id fun _ => rfl

/-- Changing the list of children of a node. -/
theorem children_setChildren (id : NodeId) (g : Node κ → List NodeId) (x : NodeId) :
    (d.modify id fun n => { n with children := g n }).children x =
      if x = id then (d.nodes[x]?).elim [] g else d.children x := by
  rw [children_modify]
  by_cases hx : x = id
  · rw [if_pos hx, if_pos hx.symm]
  · rw [if_neg (fun h => hx h.symm), if_neg hx]

theorem parent?_setChildren (id : NodeId) (g : Node κ → List NodeId) (x : NodeId) :
    (d.modify id fun n => { n with children := g n }).parent? x = d.parent? x :=
  d.parent?_modify_of_same id x fun _ => rfl

theorem sameContent_setChildren (id : NodeId) (g : Node κ → List NodeId) :
    SameContent d (d.modify id fun n => { n with children := g n }) :=
  d.sameContent_modify id fun _ => rfl

/-- Adding to the list of children of a node. -/
theorem children_addChildren {id : NodeId} (hid : id < d.size) (added : List NodeId) (x : NodeId) :
    (d.modify id fun n => { n with children := n.children ++ added }).children x =
      d.children x ++ if x = id then added else [] := by
  rw [children_setChildren]
  by_cases hx : x = id
  · subst hx
    obtain ⟨n, hn⟩ := d.exists_node hid
    rw [if_pos rfl, if_pos rfl, hn, children_of_getElem? hn]
    rfl
  · rw [if_neg hx, if_neg hx, List.append_nil]

/-- Emptying the list of children of a node. -/
theorem children_noChildren (id x : NodeId) :
    (d.modify id fun n => { n with children := [] }).children x =
      if x = id then [] else d.children x := by
  rw [children_setChildren]
  split
  · cases d.nodes[x]? <;> rfl
  · rfl

/-! ## Making a node -/

theorem getElem?_push (content : Content) (x : NodeId) :
    (d.push content).nodes[x]? =
      if x = d.size then some (.detached content) else d.nodes[x]? := by
  unfold push size
  exact Array.getElem?_push

theorem parent?_push (content : Content) (x : NodeId) :
    (d.push content).parent? x = d.parent? x := by
  unfold parent?
  rw [getElem?_push]
  split
  · rename_i hx
    rw [hx, d.getElem?_eq_none_of_size_le (Nat.le_refl _)]
    rfl
  · rfl

theorem children_push (content : Content) (x : NodeId) :
    (d.push content).children x = d.children x := by
  unfold children
  rw [getElem?_push]
  split
  · rename_i hx
    rw [hx, d.getElem?_eq_none_of_size_le (Nat.le_refl _)]
    rfl
  · rfl

theorem content_push (content : Content) (x : NodeId) :
    (d.push content).content x = if x = d.size then content else d.content x := by
  unfold Document.content
  rw [getElem?_push]
  split <;> rfl

/-! ## Taking a node away from its parent -/

theorem size_detach (c : NodeId) : (d.detach c).size = d.size := by
  unfold detach
  split
  · rfl
  · rw [size_modify, size_modify]

theorem sameContent_detach (c : NodeId) : SameContent d (d.detach c) := by
  unfold detach
  split
  · exact .refl d
  · exact (d.sameContent_setParent _ _).trans (sameContent_setChildren _ _ _)

/-- A node that was taken away has no parent; every other node keeps its own. -/
theorem parent?_detach (c x : NodeId) :
    (d.detach c).parent? x = if x = c then none else d.parent? x := by
  unfold detach
  split
  · rename_i hc
    split
    · rename_i hx
      rw [hx, hc]
    · rfl
  · rename_i p hp
    rw [parent?_setChildren, d.parent?_setParent (d.lt_size_of_parent? hp)]

/-- The former parent no longer lists the node; all other lists stay. -/
theorem children_detach (c x : NodeId) :
    (d.detach c).children x =
      if d.parent? c = some x then (d.children x).filter (· != c) else d.children x := by
  unfold detach
  split
  · rename_i hc
    rw [hc, if_neg fun h => nomatch h]
  · rename_i p hp
    rw [hp, children_setChildren]
    by_cases hx : x = p
    · subst hx
      rw [if_pos rfl, if_pos rfl, getElem?_modify]
      unfold children
      split <;> cases d.nodes[x]? <;> rfl
    · rw [if_neg hx, if_neg fun h => hx (Option.some.inj h).symm]
      exact d.children_setParent c none x

/-! ## Giving nodes a parent -/

theorem size_adopt (p : Option NodeId) (ids : List NodeId) : (d.adopt p ids).size = d.size := by
  unfold adopt
  induction ids generalizing d with
  | nil => rfl
  | cons c ids ih => rw [List.foldl_cons, ih, size_modify]

theorem sameContent_adopt (p : Option NodeId) (ids : List NodeId) :
    SameContent d (d.adopt p ids) := by
  unfold adopt
  induction ids generalizing d with
  | nil => exact .refl d
  | cons c ids ih => exact (d.sameContent_setParent c p).trans (ih _)

theorem children_adopt (p : Option NodeId) (ids : List NodeId) (x : NodeId) :
    (d.adopt p ids).children x = d.children x := by
  unfold adopt
  induction ids generalizing d with
  | nil => rfl
  | cons c ids ih => rw [List.foldl_cons, ih, children_setParent]

/-- Exactly the adopted nodes get the new parent. -/
theorem parent?_adopt (p : Option NodeId) {ids : List NodeId} (hids : ∀ c ∈ ids, c < d.size)
    (x : NodeId) : (d.adopt p ids).parent? x = if x ∈ ids then p else d.parent? x := by
  unfold adopt
  induction ids generalizing d with
  | nil => simp only [List.foldl_nil, List.not_mem_nil, ↓reduceIte]
  | cons c ids ih =>
    have hc : c < d.size := hids c List.mem_cons_self
    have hrest : ∀ a ∈ ids, a < (d.modify c fun n => { n with parent := p }).size := fun a ha => by
      rw [size_modify]
      exact hids a (List.mem_cons_of_mem _ ha)
    rw [List.foldl_cons, ih _ hrest, parent?_setParent d hc]
    by_cases hx : x ∈ ids
    · rw [if_pos hx, if_pos (List.mem_cons_of_mem _ hx)]
    · by_cases hxc : x = c
      · rw [if_neg hx, if_pos hxc, if_pos (hxc ▸ List.mem_cons_self)]
      · rw [if_neg hx, if_neg hxc, if_neg fun h => (List.mem_cons.mp h).elim hxc hx]

/-! ## Moving nodes -/

theorem sameContent_moveNode (p c : NodeId) : SameContent d (d.moveNode p c) := by
  unfold moveNode
  exact ((d.sameContent_detach c).trans (sameContent_setParent _ _ _)).trans
    (sameContent_setChildren _ _ _)

/-- A node that was moved has its new parent; every other node keeps its own. -/
theorem parent?_moveNode (p : NodeId) {c : NodeId} (hc : c < d.size) (x : NodeId) :
    (d.moveNode p c).parent? x = if x = c then some p else d.parent? x := by
  have hc' : c < (d.detach c).size := by rw [size_detach]; exact hc
  unfold moveNode
  rw [parent?_setChildren, parent?_setParent _ hc', parent?_detach]
  split <;> rfl

/-- The new parent lists a moved node last, the former one no longer. -/
theorem children_moveNode {p : NodeId} (hp : p < d.size) (c x : NodeId) :
    (d.moveNode p c).children x =
      (if d.parent? c = some x then (d.children x).filter (· != c) else d.children x) ++
        if x = p then [c] else [] := by
  have hp' : p < ((d.detach c).modify c fun n => { n with parent := some p }).size := by
    rw [size_modify, size_detach]
    exact hp
  unfold moveNode
  rw [children_addChildren _ hp', children_setParent, children_detach]

theorem sameContent_moveChildren (p f : NodeId) (moved : List NodeId) :
    SameContent d (d.moveChildren p f moved) := by
  unfold moveChildren
  exact ((d.sameContent_setChildren _ _).trans (sameContent_adopt _ _ _)).trans
    (sameContent_setChildren _ _ _)

/-- Exactly the moved nodes get the new parent. -/
theorem parent?_moveChildren (p f : NodeId) {moved : List NodeId}
    (hmoved : ∀ c ∈ moved, c < d.size) (x : NodeId) :
    (d.moveChildren p f moved).parent? x = if x ∈ moved then some p else d.parent? x := by
  have hmoved' : ∀ c ∈ moved, c < (d.modify f fun n => { n with children := [] }).size :=
    fun c hc => by rw [size_modify]; exact hmoved c hc
  unfold moveChildren
  rw [parent?_setChildren, parent?_adopt _ _ hmoved', parent?_setChildren]

/-- The new parent lists the moved nodes last, the fragment lists nothing. -/
theorem children_moveChildren {p : NodeId} (hp : p < d.size) (f : NodeId) (moved : List NodeId)
    (x : NodeId) :
    (d.moveChildren p f moved).children x =
      (if x = f then [] else d.children x) ++ if x = p then moved else [] := by
  have hp' : p < ((d.modify f fun n => { n with children := [] }).adopt (some p) moved).size := by
    rw [size_adopt, size_modify]
    exact hp
  unfold moveChildren
  rw [children_addChildren _ hp', children_adopt, children_noChildren]

/-! ## Appending -/

/-- **What an append that succeeds has checked and done**: the new parent is there and may have
children, the child is there and is neither the parent nor above it; a fragment gives its children,
any other node moves itself. -/
theorem append_eq_ok {p c : NodeId} {e : Document κ} (h : d.append p c = .ok e) :
    p < d.size ∧ c < d.size ∧ (d.content p).isContainer = true ∧ p ≠ c ∧ c ∉ d.ancestors p ∧
      (d.content c = .fragment ∧ e = d.moveChildren p c (d.children c) ∨
        d.content c ≠ .fragment ∧ e = d.moveNode p c) := by
  unfold append at h
  cases hp : d.node p with
  | error f => rw [hp] at h; cases h
  | ok np =>
    simp only [hp] at h
    split at h
    · cases h
    · rename_i hcontainer
      split at h
      · cases h
      · rename_i hcycle
        cases hc : d.node c with
        | error f => rw [hc] at h; cases h
        | ok nc =>
          simp only [hc] at h
          have hnp := (d.node_eq_ok_iff).mp hp
          have hnc := (d.node_eq_ok_iff).mp hc
          rw [content_of_getElem? hnp, content_of_getElem? hnc, children_of_getElem? hnc]
          refine ⟨d.lt_size_of_node hp, d.lt_size_of_node hc, ?_, fun he => hcycle (.inl he),
            fun hm => hcycle (.inr hm), ?_⟩
          · simpa only [Bool.not_eq_true', Bool.not_eq_false] using hcontainer
          · split at h
            · rename_i hfragment
              exact .inl ⟨hfragment, (Except.ok.inj h).symm⟩
            · rename_i hother
              exact .inr ⟨hother, (Except.ok.inj h).symm⟩

/-- A fragment is appended when its new parent may have children and does not lie in it. -/
theorem append_fragment {p c : NodeId} (hp : p < d.size) (hc : c < d.size)
    (hcontainer : (d.content p).isContainer = true) (hfragment : d.content c = .fragment)
    (hne : p ≠ c) (habove : c ∉ d.ancestors p) :
    d.append p c = .ok (d.moveChildren p c (d.children c)) := by
  obtain ⟨np, hnp⟩ := d.exists_node hp
  obtain ⟨nc, hnc⟩ := d.exists_node hc
  rw [content_of_getElem? hnp] at hcontainer
  rw [content_of_getElem? hnc] at hfragment
  have hcycle : ¬ (p = c ∨ c ∈ d.ancestors p) := by
    rintro (he | hm)
    · exact hne he
    · exact habove hm
  unfold append
  rw [(d.node_eq_ok_iff).mpr hnp, (d.node_eq_ok_iff).mpr hnc, children_of_getElem? hnc]
  dsimp only
  rw [hcontainer, if_neg (by decide), if_neg hcycle, hfragment]

/-! ## Detaching every child -/

/-- The document after every child of a node was detached. -/
theorem clear_eq_ok {id : NodeId} {e : Document κ} (h : d.clear id = .ok e) :
    id < d.size ∧
      e = (d.modify id fun n => { n with children := [] }).adopt none (d.children id) := by
  unfold clear at h
  cases hn : d.node id with
  | error f => rw [hn] at h; cases h
  | ok n =>
    rw [hn] at h
    cases h
    rw [children_of_getElem? ((d.node_eq_ok_iff).mp hn)]
    exact ⟨d.lt_size_of_node hn, rfl⟩

theorem sameContent_clear {id : NodeId} {e : Document κ} (h : d.clear id = .ok e) :
    SameContent d e := by
  obtain ⟨_, rfl⟩ := d.clear_eq_ok h
  exact (d.sameContent_setChildren _ _).trans (sameContent_adopt _ _ _)

/-- Exactly the former children lose their parent. -/
theorem parent?_clear {id : NodeId} {e : Document κ} (h : d.clear id = .ok e)
    (hbound : ∀ c ∈ d.children id, c < d.size) (x : NodeId) :
    e.parent? x = if x ∈ d.children id then none else d.parent? x := by
  obtain ⟨_, rfl⟩ := d.clear_eq_ok h
  have hbound' : ∀ c ∈ d.children id, c < (d.modify id fun n => { n with children := [] }).size :=
    fun c hc => by rw [size_modify]; exact hbound c hc
  rw [parent?_adopt _ _ hbound', parent?_setChildren]

theorem children_clear {id : NodeId} {e : Document κ} (h : d.clear id = .ok e) (x : NodeId) :
    e.children x = if x = id then [] else d.children x := by
  obtain ⟨_, rfl⟩ := d.clear_eq_ok h
  rw [children_adopt, children_noChildren]

/-! ## The same edit of documents with the same links -/

variable {d} {e : Document κ}

theorem SameLinks.moveChildren (h : SameLinks d e) {p : NodeId} (hp : p < d.size) (f : NodeId)
    {moved : List NodeId} (hmoved : ∀ c ∈ moved, c < d.size) :
    SameLinks (d.moveChildren p f moved) (e.moveChildren p f moved) := by
  have hp' : p < e.size := h.size.symm ▸ hp
  have hmoved' : ∀ c ∈ moved, c < e.size := fun c hc => h.size.symm ▸ hmoved c hc
  refine ⟨?_, fun x => ?_, fun x => ?_⟩
  · rw [(e.sameContent_moveChildren p f moved).size, (d.sameContent_moveChildren p f moved).size,
      h.size]
  · rw [parent?_moveChildren _ _ _ hmoved', parent?_moveChildren _ _ _ hmoved, h.parent?]
  · rw [children_moveChildren _ hp', children_moveChildren _ hp, h.children]

theorem SameLinks.clear (h : SameLinks d e) {id : NodeId} {d' e' : Document κ}
    (hbound : ∀ c ∈ d.children id, c < d.size) (hd : d.clear id = .ok d') (he : e.clear id = .ok e') :
    SameLinks d' e' := by
  have hbound' : ∀ c ∈ e.children id, c < e.size := by
    rw [h.children, h.size]
    exact hbound
  refine ⟨?_, fun x => ?_, fun x => ?_⟩
  · rw [(e.sameContent_clear he).size, (d.sameContent_clear hd).size, h.size]
  · rw [e.parent?_clear he hbound', d.parent?_clear hd hbound, h.children, h.parent?]
  · rw [e.children_clear he, d.children_clear hd, h.children]

end BoundView.Dom.Document
