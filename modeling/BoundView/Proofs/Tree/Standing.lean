import BoundView.Proofs.Tree.Frame

/-!
# Forests that stand in a document

A forest **stands** in a document from a number on when its nodes take consecutive numbers in
preorder there, each with the content, the parent, the children and the listeners that the forest
gives it. Planting puts a forest in that place (`standing_plant`), and once it stands there its
links can be read off its shape (`Standing.mem_tops_or_link`, `Standing.parent?_of_mem_children`).

Main statements: `standing_plant`, and `exists_link_plant` with `parent?_plant_cases`, planting adds
links from new nodes to smaller numbers and no others.
-/

namespace BoundView.Forest

universe u

variable {α : Type u}

theorem mem_tops {base x : Nat} {f : Forest α} (h : x ∈ f.tops base) :
    base ≤ x ∧ x < base + f.size := by
  induction f generalizing base with
  | nil => cases h
  | node a children rest _ ih =>
    simp only [tops, size] at h ⊢
    rcases List.mem_cons.mp h with rfl | h
    · omega
    · have := ih h
      omega

theorem nodup_tops (base : Nat) (f : Forest α) : (f.tops base).Nodup := by
  induction f generalizing base with
  | nil => exact List.nodup_nil
  | node a children rest _ ih =>
    refine List.nodup_cons.mpr ⟨fun h => ?_, ih _⟩
    have := (mem_tops h).1
    omega

end BoundView.Forest

namespace BoundView.Dom

namespace Document

variable {κ : Type} {d e : Document κ}

/-- **A forest stands in a document**: from `base` on, under `parent`. -/
def Standing (d : Document κ) (parent : Option NodeId) (base : Nat) : Forest (Seed κ) → Prop
  | .nil => True
  | .node seed children rest =>
    (∃ first, d.nodes[base]? = some ⟨seed.content, parent, children.tops (base + 1),
      numbered first seed.listeners⟩) ∧
      d.Standing (some base) (base + 1) children ∧
        d.Standing parent (base + 1 + children.size) rest

/-! ## Making the nodes -/

theorem getElem?_pushPlaced (d : Document κ) (p : Forest.Placed (Seed κ)) (x : NodeId) :
    (d.pushPlaced p).nodes[x]? =
      if x = d.size then
        some ⟨p.label.content, p.parent, p.children, numbered d.nextListener p.label.listeners⟩
      else d.nodes[x]? := by
  unfold pushPlaced size
  exact Array.getElem?_push

theorem size_pushPlaced (d : Document κ) (p : Forest.Placed (Seed κ)) :
    (d.pushPlaced p).size = d.size + 1 := by
  unfold pushPlaced size
  exact Array.size_push _

theorem size_foldl_pushPlaced (d : Document κ) (ps : List (Forest.Placed (Seed κ))) :
    (ps.foldl pushPlaced d).size = d.size + ps.length := by
  induction ps generalizing d with
  | nil => rfl
  | cons p ps ih =>
    rw [List.foldl_cons, ih, size_pushPlaced, List.length_cons]
    omega

/-- Nodes that were there stay as they are. -/
theorem getElem?_foldl_pushPlaced (d : Document κ) (ps : List (Forest.Placed (Seed κ)))
    {x : Nat} (hx : x < d.size) : (ps.foldl pushPlaced d).nodes[x]? = d.nodes[x]? := by
  induction ps generalizing d with
  | nil => rfl
  | cons p ps ih =>
    have hx' : x < (d.pushPlaced p).size := by rw [size_pushPlaced]; omega
    rw [List.foldl_cons, ih _ hx', getElem?_pushPlaced, if_neg (Nat.ne_of_lt hx)]

/-- A forest keeps standing where its nodes stay as they are. -/
theorem Standing.congr {parent : Option NodeId} {base : Nat} {f : Forest (Seed κ)}
    (h : d.Standing parent base f)
    (same : ∀ x : Nat, base ≤ x → x < base + f.size → e.nodes[x]? = d.nodes[x]?) :
    e.Standing parent base f := by
  induction f generalizing parent base with
  | nil => trivial
  | node seed children rest ihc ihr =>
    obtain ⟨⟨first, hnode⟩, hchildren, hrest⟩ := h
    simp only [Forest.size] at same
    refine ⟨⟨first, ?_⟩, ihc hchildren fun x h1 h2 => same x ?_ ?_,
      ihr hrest fun x h1 h2 => same x ?_ ?_⟩
    · rw [same base (Nat.le_refl _) (by omega)]
      exact hnode
    all_goals omega

/-- The nodes of a layout, made one after the other, are the forest. -/
theorem standing_foldl_pushPlaced (d : Document κ) (parent : Option NodeId)
    (f : Forest (Seed κ)) :
    ((f.layout parent d.size).foldl pushPlaced d).Standing parent d.size f := by
  induction f generalizing d parent with
  | nil => trivial
  | node seed children rest ihc ihr =>
    simp only [Forest.layout, List.foldl_cons, List.foldl_append]
    generalize hp : (Forest.Placed.mk seed parent (children.tops (d.size + 1))) = placed
    have h1 : (d.pushPlaced placed).size = d.size + 1 := d.size_pushPlaced placed
    have hc := ihc (d.pushPlaced placed) (some d.size)
    rw [h1] at hc
    generalize hc' : (children.layout (some d.size) (d.size + 1)).foldl pushPlaced
      (d.pushPlaced placed) = d' at hc
    have h2 : d'.size = d.size + 1 + children.size := by
      rw [← hc', size_foldl_pushPlaced, h1, Forest.length_layout]
    have hr := ihr d' parent
    rw [h2] at hr
    refine ⟨⟨d.nextListener, ?_⟩, hc.congr fun x _ hx => ?_, hr⟩
    · rw [getElem?_foldl_pushPlaced _ _ (by omega), ← hc',
        getElem?_foldl_pushPlaced _ _ (by omega), getElem?_pushPlaced, if_pos rfl, ← hp]
    · exact getElem?_foldl_pushPlaced _ _ (by omega)

theorem size_plant (d : Document κ) (parent : NodeId) (seeds : Forest (Seed κ)) :
    (d.plant parent seeds).size = d.size + seeds.size := by
  unfold plant
  rw [size_modify, size_foldl_pushPlaced, Forest.length_layout]

/-- Nodes that were there stay as they are, but for the children of the one planted into. -/
theorem getElem?_plant (d : Document κ) (parent : NodeId) (seeds : Forest (Seed κ)) {x : Nat}
    (hx : x < d.size) :
    (d.plant parent seeds).nodes[x]? =
      if parent = x then
        (d.nodes[x]?).map fun n => { n with children := n.children ++ seeds.tops d.size }
      else d.nodes[x]? := by
  unfold plant
  rw [getElem?_modify, getElem?_foldl_pushPlaced _ _ hx]

/-- **A planted forest stands** behind the nodes that were there. -/
theorem standing_plant (d : Document κ) {parent : Nat} (hparent : parent < d.size)
    (seeds : Forest (Seed κ)) : (d.plant parent seeds).Standing (some parent) d.size seeds := by
  refine (d.standing_foldl_pushPlaced (some parent) seeds).congr fun x hx _ => ?_
  unfold plant
  rw [getElem?_modify, if_neg (Nat.ne_of_lt (Nat.lt_of_lt_of_le hparent hx))]

/-! ## The links of a standing forest -/

namespace Standing

variable {parent : Option NodeId} {base : Nat} {f : Forest (Seed κ)}

/-- The top nodes have the given parent. -/
theorem parent?_of_mem_tops (h : d.Standing parent base f) {x : NodeId} (hx : x ∈ f.tops base) :
    d.parent? x = parent := by
  induction f generalizing base with
  | nil => cases hx
  | node seed children rest _ ihr =>
    obtain ⟨⟨first, hnode⟩, _, hrest⟩ := h
    rcases List.mem_cons.mp hx with rfl | hx
    · exact parent?_of_getElem? hnode
    · exact ihr hrest hx

/-- Each node is a top node, or its parent comes before it and lists it. -/
theorem mem_tops_or_link (h : d.Standing parent base f) {x : Nat} (h1 : base ≤ x)
    (h2 : x < base + f.size) :
    x ∈ f.tops base ∨ ∃ q : Nat, base ≤ q ∧ q < x ∧ d.parent? x = some q ∧ x ∈ d.children q := by
  induction f generalizing parent base with
  | nil =>
    simp only [Forest.size] at h2
    omega
  | node seed children rest ihc ihr =>
    obtain ⟨⟨first, hnode⟩, hchildren, hrest⟩ := h
    simp only [Forest.size] at h2
    rcases Nat.lt_or_ge x (base + 1 + children.size) with hlt | hge
    · rcases Nat.eq_or_lt_of_le h1 with rfl | hgt
      · exact .inl List.mem_cons_self
      · right
        rcases ihc hchildren hgt hlt with htop | ⟨q, hq, hlt, hlink⟩
        · refine ⟨base, Nat.le_refl _, hgt, hchildren.parent?_of_mem_tops htop, ?_⟩
          rw [children_of_getElem? hnode]
          exact htop
        · exact ⟨q, by omega, hlt, hlink⟩
    · rcases ihr hrest hge (by omega) with htop | ⟨q, hq, hlt, hlink⟩
      · exact .inl (List.mem_cons_of_mem _ htop)
      · exact .inr ⟨q, by omega, hlt, hlink⟩

/-- The children that a node lists are nodes of the forest with that parent, each once. -/
theorem parent?_of_mem_children (h : d.Standing parent base f) {q : Nat} (h1 : base ≤ q)
    (h2 : q < base + f.size) :
    (d.children q).Nodup ∧ ∀ c ∈ d.children q, d.parent? c = some q := by
  induction f generalizing parent base with
  | nil =>
    simp only [Forest.size] at h2
    omega
  | node seed children rest ihc ihr =>
    obtain ⟨⟨first, hnode⟩, hchildren, hrest⟩ := h
    simp only [Forest.size] at h2
    rcases Nat.lt_or_ge q (base + 1 + children.size) with hlt | hge
    · rcases Nat.eq_or_lt_of_le h1 with rfl | hgt
      · rw [children_of_getElem? hnode]
        exact ⟨children.nodup_tops _, fun c hc => hchildren.parent?_of_mem_tops hc⟩
      · exact ihc hchildren hgt hlt
    · exact ihr hrest hge (by omega)

/-- What a standing forest holds at a node is what one of its labels holds. -/
theorem exists_content {parent : Option NodeId} {base : Nat} {f : Forest (Seed κ)}
    (h : d.Standing parent base f) {x : Nat} (h1 : base ≤ x) (h2 : x < base + f.size) :
    ∃ seed ∈ f.preorder, d.content x = seed.content := by
  induction f generalizing parent base with
  | nil =>
    simp only [Forest.size] at h2
    omega
  | node seed children rest ihc ihr =>
    obtain ⟨⟨first, hnode⟩, hchildren, hrest⟩ := h
    simp only [Forest.size] at h2
    rcases Nat.lt_or_ge x (base + 1 + children.size) with hlt | hge
    · rcases Nat.eq_or_lt_of_le h1 with rfl | hgt
      · exact ⟨seed, List.mem_cons_self, content_of_getElem? hnode⟩
      · obtain ⟨s, hs, hcontent⟩ := ihc hchildren hgt hlt
        exact ⟨s, List.mem_cons_of_mem _ (List.mem_append_left _ hs), hcontent⟩
    · obtain ⟨s, hs, hcontent⟩ := ihr hrest hge (by omega)
      exact ⟨s, List.mem_cons_of_mem _ (List.mem_append_right _ hs), hcontent⟩

end Standing

end Document

/-- **What a new node may be**: no fragment, with different names of attributes. -/
structure Content.Sound (c : Content) : Prop where
  notFragment : c ≠ .fragment
  names : c.attributes.names.Nodup

end BoundView.Dom

namespace BoundView.Forest

open BoundView.Dom (Content)

/-- A forest of sound nodes, in which texts and comments have no children. -/
def Sound : Forest Content → Prop
  | .nil => True
  | .node c children rest =>
    c.Sound ∧ (children ≠ .nil → c.isContainer = true) ∧ Sound children ∧ Sound rest

end BoundView.Forest

namespace BoundView.Dom.Document

variable {κ : Type} {d : Document κ}

/-- The nodes of a standing forest of sound nodes are sound, and only containers have children. -/
theorem Standing.sound {parent : Option NodeId} {base : Nat} {f : Forest (Seed κ)}
    (h : d.Standing parent base f) (hf : (f.map Seed.content).Sound) {x : Nat} (h1 : base ≤ x)
    (h2 : x < base + f.size) :
    (d.content x).Sound ∧ (d.children x ≠ [] → (d.content x).isContainer = true) := by
  induction f generalizing parent base with
  | nil =>
    simp only [Forest.size] at h2
    omega
  | node seed children rest ihc ihr =>
    obtain ⟨⟨first, hnode⟩, hchildren, hrest⟩ := h
    obtain ⟨hsound, hcontainer, hfc, hfr⟩ := hf
    simp only [Forest.size] at h2
    rcases Nat.lt_or_ge x (base + 1 + children.size) with hlt | hge
    · rcases Nat.eq_or_lt_of_le h1 with rfl | hgt
      · rw [content_of_getElem? hnode, children_of_getElem? hnode]
        refine ⟨hsound, fun htops => hcontainer fun hnil => htops ?_⟩
        cases children with
        | nil => rfl
        | node _ _ _ => cases hnil
      · exact ihc hchildren hfc hgt hlt
    · exact ihr hrest hfr hge (by omega)

/-! ## Planting -/

theorem parent?_plant (d : Document κ) (parent : NodeId) (seeds : Forest (Seed κ)) {x : Nat}
    (hx : x < d.size) : (d.plant parent seeds).parent? x = d.parent? x := by
  unfold Document.parent?
  rw [getElem?_plant d parent seeds hx]
  split
  · cases d.nodes[x]? <;> rfl
  · rfl

theorem content_plant (d : Document κ) (parent : NodeId) (seeds : Forest (Seed κ)) {x : Nat}
    (hx : x < d.size) : (d.plant parent seeds).content x = d.content x := by
  unfold Document.content
  rw [getElem?_plant d parent seeds hx]
  split
  · cases d.nodes[x]? <;> rfl
  · rfl

theorem children_plant (d : Document κ) (parent : NodeId) (seeds : Forest (Seed κ)) {x : Nat}
    (hx : x < d.size) :
    (d.plant parent seeds).children x =
      d.children x ++ if x = parent then seeds.tops d.size else [] := by
  unfold Document.children
  rw [getElem?_plant d parent seeds hx]
  by_cases hp : parent = x
  · obtain ⟨n, hn⟩ := d.exists_node hx
    rw [if_pos hp, if_pos hp.symm, hn]
    rfl
  · rw [if_neg hp, if_neg fun he => hp he.symm, List.append_nil]

theorem getElem?_plant_of_size_le (d : Document κ) (parent : NodeId) (seeds : Forest (Seed κ))
    {x : Nat} (hx : d.size + seeds.size ≤ x) : (d.plant parent seeds).nodes[x]? = none :=
  getElem?_eq_none_of_size_le _ (by rw [size_plant]; exact hx)

/-- A node of a document after planting is an old one, a new one, or not there. -/
theorem old_or_new (d : Document κ) (seeds : Forest (Seed κ)) (x : Nat) :
    x < d.size ∨ (d.size ≤ x ∧ x < d.size + seeds.size) ∨ d.size + seeds.size ≤ x := by
  omega

/-- The parent of a new node comes before it and lists it. -/
theorem exists_link_plant (d : Document κ) {parent : Nat} (hparent : parent < d.size)
    (seeds : Forest (Seed κ)) {x : Nat} (h1 : d.size ≤ x) (h2 : x < d.size + seeds.size) :
    ∃ q : Nat, q < x ∧ (d.plant parent seeds).parent? x = some q ∧
      x ∈ (d.plant parent seeds).children q := by
  have standing := d.standing_plant hparent seeds
  rcases standing.mem_tops_or_link h1 h2 with htop | ⟨q, _, hqx, hlink, hmem⟩
  · refine ⟨parent, Nat.lt_of_lt_of_le hparent h1, standing.parent?_of_mem_tops htop, ?_⟩
    rw [d.children_plant parent seeds hparent, if_pos rfl]
    exact List.mem_append_right _ htop
  · exact ⟨q, hqx, hlink, hmem⟩

/-- A link after planting is an old one, or leads from a new node to a smaller number. -/
theorem parent?_plant_cases (d : Document κ) {parent : Nat} (hparent : parent < d.size)
    (seeds : Forest (Seed κ)) {c p : Nat} (hp : (d.plant parent seeds).parent? c = some p) :
    d.parent? c = some p ∨ d.size ≤ c ∧ p < c := by
  rcases d.old_or_new seeds c with hc | ⟨hc, hc'⟩ | hc
  · rw [d.parent?_plant parent seeds hc] at hp
    exact .inl hp
  · obtain ⟨q, hqc, hq, _⟩ := d.exists_link_plant hparent seeds hc hc'
    rw [hq] at hp
    cases hp
    exact .inr ⟨hc, hqc⟩
  · unfold Document.parent? at hp
    rw [d.getElem?_plant_of_size_le parent seeds hc] at hp
    cases hp

end BoundView.Dom.Document
