import BoundView.Proofs.Rendering.Markup
import BoundView.Proofs.Tree.Extending
import Mathlib.Data.List.TakeWhile

/-!
# What is mounted is the filtered source

Compiling the children of a node, making new nodes in a fragment and moving them under the node come to
one thing: the trees under the node, less what is not shown, each node replaced by what it is rendered
to. `Forest.prune` and `Forest.map` say this without handles, templates and fragments. The nodes of the
old trees stay where they were, without the node above them.

Main statement: `mount_renders`.
-/

namespace BoundView.Forest

variable {α : Type _}

/-- **The trees without the nodes that are not kept**, and without what lies under these. -/
def prune (keep : α → Bool) : Forest α → Forest α
  | nil => nil
  | node a children rest =>
    if keep a then node a (children.prune keep) (rest.prune keep) else rest.prune keep

end BoundView.Forest

namespace BoundView

open BoundView.Dom (Attribute Attributes Content Document Element Listener NodeId Operation Seed)
open BoundView.Interpolation (resolvedText)

/-! ## What is shown, and as what -/

/-- **Whether a node is shown**: elements, and texts that are not all blank. -/
def Dom.Content.isShown : Content → Bool
  | .element _ => true
  | .text data => !data.toList.all Text.isBlank
  | .comment _ | .document | .fragment => false

/-- Whether an attribute is copied: its name begins neither with `v-` nor with `@`. -/
def Dom.Attribute.isCopied (a : Attribute) : Bool :=
  !Text.startsWith ['v', '-'] a.name.toList && !Text.startsWith ['@'] a.name.toList

/-- The key that the value of an element is bound to. -/
def Dom.Element.boundKey? (e : Element) : Option String :=
  if Markup.isInput e.tag then (e.attributes.get? "v-model").map Text.trimmed else none

/-- The event type that an attribute names a method for. -/
def Dom.Attribute.eventType? (a : Attribute) : Option String :=
  match a.name.toList with
  | '@' :: type => some (String.ofList type)
  | _ => none

variable {κ : Type}

/-- **What an element asks to hear**: its events in order, then edits of the value it is bound to. -/
def Dom.Element.heard (binder : Binder κ) (e : Element) : List (String × κ) :=
  (e.attributes.filterMap fun a => a.eventType?.map fun type => (type, binder.method a.value)) ++
    e.boundKey?.toList.map fun key => ("input", binder.model key)

/-- **What a node is rendered to.** -/
def rendition (context : RenderContext κ) : Content → Seed κ
  | .element e =>
    ⟨.element ⟨e.tag, e.attributes.filter Attribute.isCopied,
      e.boundKey?.map (boundText context.lookup context.missing)⟩, e.heard context.binder⟩
  | .text data => .plain (.text (resolvedText context.lookup context.missing data))
  | c => .plain c

/-- What a node holds and what it hears, without the identifiers of its listeners. -/
def Dom.Document.held (d : Document κ) (x : NodeId) : Seed κ :=
  ⟨d.content x, (d.listeners x).map fun l => (l.type, l.action)⟩

/-! ## Compiled nodes -/

/-- Trimming leaves nothing of blanks only. -/
theorem Text.isEmpty_trim (cs : List Char) : (trim cs).isEmpty = cs.all isBlank := by
  rw [Bool.eq_iff_iff, List.isEmpty_iff, List.all_eq_true]
  unfold trim
  rw [List.reverse_eq_nil_iff, List.dropWhile_eq_nil_iff]
  constructor
  · intro h c hc
    rw [← List.takeWhile_append_dropWhile (p := isBlank) (l := cs)] at hc
    rcases List.mem_append.mp hc with hfront | hbehind
    · exact List.mem_takeWhile_imp hfront
    · exact h c (List.mem_reverse.mpr hbehind)
  · intro h c hc
    exact h c ((List.dropWhile_sublist isBlank).subset (List.mem_reverse.mp hc))

/-- The class of an attribute, by the beginning of its name. -/
theorem AttributeClass.ofName_cases (name : String) :
    (∃ tail, name.toList = 'v' :: '-' :: tail ∧ ofName name = .directive name) ∨
      (∃ type, name.toList = '@' :: type ∧ ofName name = .event (String.ofList type)) ∨
        (∀ tail, name.toList ≠ 'v' :: '-' :: tail) ∧ (∀ type, name.toList ≠ '@' :: type) ∧
          ofName name = .plain name := by
  unfold ofName
  split
  · rename_i tail heq
    exact .inl ⟨tail, heq, rfl⟩
  · rename_i type heq
    exact .inr (.inl ⟨type, heq, rfl⟩)
  · rename_i hdirective hevent
    exact .inr (.inr ⟨hdirective, hevent, rfl⟩)

namespace Part

variable {tag : String} {attributes : Attributes}

/-- An attribute is copied where it is neither a directive nor an event. -/
theorem isCopied_eq (a : Attribute) :
    a.isCopied = match AttributeClass.ofName a.name with
      | .plain _ => true
      | _ => false := by
  unfold Attribute.isCopied
  rcases AttributeClass.ofName_cases a.name with ⟨tail, heq, hclass⟩ | ⟨type, heq, hclass⟩ |
      ⟨hdirective, hevent, hclass⟩
  · simp [hclass, heq, Text.startsWith, List.isPrefixOf]
  · simp [hclass, heq, Text.startsWith, List.isPrefixOf]
  · have never : ∀ front, (∀ tail, a.name.toList ≠ front ++ tail) →
        Text.startsWith front a.name.toList = false := by
      intro front hfront
      rw [Bool.eq_false_iff, Ne, Text.startsWith_eq_true_iff]
      rintro ⟨tail, htail⟩
      exact hfront tail htail.symm
    rw [hclass, never _ hdirective, never _ hevent]
    rfl

/-- An attribute names a method where it is an event. -/
theorem eventType?_eq (a : Attribute) :
    a.eventType? = match AttributeClass.ofName a.name with
      | .event type => some type
      | _ => none := by
  unfold Attribute.eventType?
  rcases AttributeClass.ofName_cases a.name with ⟨tail, heq, hclass⟩ | ⟨type, heq, hclass⟩ |
      ⟨_, hevent, hclass⟩
  · rw [hclass, heq]
    rfl
  · rw [hclass, heq]
    rfl
  · rw [hclass]
    split
    · rename_i type heq
      exact absurd heq (hevent type)
    · rfl

/-- The plain attributes of a part are those that are copied. -/
theorem plain_eq (tag : String) (attributes : Attributes) (rendered : Option NodeId) :
    (Part.element tag attributes rendered).plain =
      (attributes.filter Attribute.isCopied).map fun a => (a.name, a.value) := by
  show attributes.filterMap _ = _
  rw [← List.filterMap_eq_map, List.filterMap_filter]
  congr 1
  funext a
  rw [isCopied_eq]
  cases hclass : AttributeClass.ofName a.name with
  | plain name =>
    rw [AttributeClass.eq_of_plain hclass]
    rfl
  | directive name => rfl
  | event type => rfl

/-- Attributes with different names, set one after the other, are these attributes. -/
theorem foldl_set {before entries : Attributes} (h : (before ++ entries).names.Nodup) :
    (entries.map fun a => (a.name, a.value)).foldl
      (fun as (name, value) => as.set name value) before = before ++ entries := by
  induction entries generalizing before with
  | nil => simp
  | cons a entries ih =>
    have hnew : a.name ∉ before.names := by
      unfold Attributes.names at h ⊢
      rw [List.map_append, List.nodup_append] at h
      exact fun hmem => h.2.2 _ hmem _ (List.mem_map_of_mem List.mem_cons_self) rfl
    rw [List.map_cons, List.foldl_cons]
    show List.foldl _ (before.set a.name a.value) _ = _
    rw [Attributes.set_of_not_mem hnew, ih]
    · simp
    · simpa using h

/-- **The attributes of a part's node** are the copied ones, in order. -/
theorem nodeAttributes_eq (h : attributes.names.Nodup) (rendered : Option NodeId) :
    (Part.element tag attributes rendered).nodeAttributes = attributes.filter Attribute.isCopied := by
  unfold nodeAttributes
  rw [plain_eq]
  refine (foldl_set ?_).trans (List.nil_append _)
  exact h.sublist (List.filter_sublist.map _)

/-- **An element part is made into what its element is rendered to.** -/
theorem seed?_element (context : RenderContext κ) {e : Element} (hnames : e.attributes.names.Nodup)
    (htag : Markup.LowerTag e.tag) :
    (Part.element e.tag e.attributes none).seed? context = some (rendition context (.element e)) := by
  have hevents : (Part.element e.tag e.attributes none).events =
      e.attributes.filterMap fun a => a.eventType?.map fun type => (type, a.value) := by
    show e.attributes.filterMap _ = _
    congr 1
    funext a
    rw [eventType?_eq]
    cases AttributeClass.ofName a.name <;> rfl
  have hcontent : (Part.element e.tag e.attributes none).derived context.lookup context.missing =
      (rendition context (.element e)).content := by
    show Content.element ⟨Text.lowercase e.tag, _, _⟩ = _
    rw [nodeAttributes_eq hnames, htag]
    rfl
  have hheard : ((Part.element e.tag e.attributes none).events.map fun entry =>
      (entry.1, context.binder.method entry.2)) =
        e.attributes.filterMap fun a => a.eventType?.map fun type =>
          (type, context.binder.method a.value) := by
    rw [hevents, List.map_filterMap]
    congr 1
    funext a
    cases a.eventType? <;> rfl
  show some (Seed.mk ((Part.element e.tag e.attributes none).derived context.lookup context.missing)
    (((Part.element e.tag e.attributes none).events.map fun entry =>
      (entry.1, context.binder.method entry.2)) ++ _)) = _
  rw [hcontent, hheard]
  rfl

end Part

namespace Template

open BoundView.Dom.Document (Coherent LowerTags)

variable {d e : Document κ} {root : NodeId}

theorem seeds_node {context : RenderContext κ} {p : Part} {seed : Seed κ}
    (h : p.seed? context = some seed) (children rest : Template) :
    seeds context (.node p children rest) =
      .node seed (seeds context children) (seeds context rest) := by
  rw [seeds, h]

/-- **Compiled nodes render to what is shown of the nodes**, each replaced by what it is rendered to. -/
theorem seeds_ofContents (context : RenderContext κ) (hd : d.Coherent) (htags : d.LowerTags)
    (ids : List NodeId) :
    (ofContents (d.contents ids)).seeds context =
      ((d.contents ids).prune Content.isShown).map (rendition context) := by
  induction ids using hd.children_induction with
  | nil =>
    rw [d.contents_nil]
    rfl
  | cons id ids ihc ihr =>
    rw [hd.contents_cons]
    cases hcontent : d.content id with
    | element e =>
      have hnames := hd.names id
      have htag := htags id
      rw [hcontent] at hnames htag
      show seeds context (.node (.element e.tag e.attributes none)
        (ofContents (d.contents (d.children id))) (ofContents (d.contents ids))) = _
      rw [seeds_node (Part.seed?_element context hnames (htag _ rfl)), ihc, ihr]
      rfl
    | text data =>
      -- a text has no children
      have hnone : d.children id = [] := by
        by_contra hne
        have hcontainer := hd.container id hne
        rw [hcontent] at hcontainer
        cases hcontainer
      rw [hnone, d.contents_nil]
      have hshown : Content.isShown (.text data) = !(Text.trim data.toList).isEmpty := by
        rw [Text.isEmpty_trim]
        rfl
      show seeds context (if (Text.trim data.toList).isEmpty then _ else _) =
        Forest.map _ (if Content.isShown (.text data) then _ else _)
      rw [hshown]
      cases (Text.trim data.toList).isEmpty with
      | true => exact ihr
      | false => exact congrArg (Forest.node (rendition context (.text data)) .nil) ihr
    | comment data => exact ihr
    | document => exact ihr
    | fragment => exact ihr

end Template

/-! ## The trees of a mounted template -/

namespace Dom.Document

variable {d e : Document κ}

theorem map_numbered (first : Nat) (listeners : List (String × κ)) :
    (numbered first listeners).map (fun l => (l.type, l.action)) = listeners := by
  induction listeners generalizing first with
  | nil => rfl
  | cons entry listeners ih => exact congrArg (entry :: ·) (ih (first + 1))

/-- **The trees of a standing forest** have its nodes in preorder, and hold and hear what its labels
say, while contents, children and listeners of its nodes stay as they are. -/
theorem Coherent.subtrees_of_standing (h : e.Coherent) {parent : Option NodeId} {base : Nat}
    {f : Forest (Seed κ)} (hstanding : d.Standing parent base f)
    (same : ∀ x : Nat, base ≤ x → x < base + f.size →
      e.content x = d.content x ∧ e.children x = d.children x ∧ e.listeners x = d.listeners x) :
    (e.subtrees (f.tops base)).preorder = List.range' base f.size ∧
      (e.subtrees (f.tops base)).map e.held = f := by
  induction f generalizing parent base with
  | nil =>
    rw [show (Forest.nil : Forest (Seed κ)).tops base = [] from rfl, Coherent.subtrees_nil]
    exact ⟨rfl, rfl⟩
  | node seed children rest ihc ihr =>
    obtain ⟨⟨first, hnode⟩, hchildren, hrest⟩ := hstanding
    simp only [Forest.size] at same
    obtain ⟨hcontent, hlist, hlisteners⟩ := same base (Nat.le_refl _) (by omega)
    obtain ⟨hc, hc'⟩ := ihc hchildren fun x h1 h2 => same x (by omega) (by omega)
    obtain ⟨hr, hr'⟩ := ihr hrest fun x h1 h2 => same x (by omega) (by omega)
    rw [content_of_getElem? hnode] at hcontent
    rw [children_of_getElem? hnode] at hlist
    rw [listeners_of_getElem? hnode] at hlisteners
    have hheld : e.held base = seed := by
      unfold held
      rw [hcontent, hlisteners, map_numbered]
    show (e.subtrees (base :: rest.tops _)).preorder = _ ∧ (e.subtrees (base :: rest.tops _)).map _ = _
    rw [h.subtrees_cons, hlist]
    constructor
    · show base :: (_ ++ _) = _
      rw [hc, hr, List.range'_append_1, Forest.size, Nat.add_assoc 1, Nat.add_comm 1, List.range'_succ]
    · show Forest.node _ _ _ = _
      rw [hheld, hc', hr']

/-- Trees stay as they are while their nodes have the same children. -/
theorem Coherent.subtrees_congr (hd : d.Coherent) (he : e.Coherent) (ids : List NodeId)
    (same : ∀ x ∈ (d.subtrees ids).preorder, e.children x = d.children x) :
    e.subtrees ids = d.subtrees ids := by
  induction ids using hd.children_induction with
  | nil => rw [Coherent.subtrees_nil, Coherent.subtrees_nil]
  | cons id ids ihc ihr =>
    rw [hd.subtrees_cons] at same
    rw [he.subtrees_cons, hd.subtrees_cons, same id List.mem_cons_self,
      ihc fun x hx => same x (List.mem_cons_of_mem _ (List.mem_append_left _ hx)),
      ihr fun x hx => same x (List.mem_cons_of_mem _ (List.mem_append_right _ hx))]

/-- A node does not lie in the trees of its children. -/
theorem Coherent.not_mem_subtrees_children (h : d.Coherent) (id : NodeId) :
    id ∉ (d.subtrees (d.children id)).preorder := by
  intro hmem
  obtain ⟨c, hc, hid⟩ := h.mem_subtrees_iff.mp hmem
  exact h.acyclic id (Relation.TransGen.tail' hid ((h.mem_children id c).mp hc))

theorem Coherent.lt_of_mem_subtrees_children (h : d.Coherent) {id x : Nat}
    (hx : x ∈ (d.subtrees (d.children id)).preorder) : x < d.size := by
  obtain ⟨c, hc, hxc⟩ := h.mem_subtrees_iff.mp hx
  rcases Relation.ReflTransGen.cases_head hxc with rfl | ⟨q, hq, _⟩
  · exact h.child_lt hc
  · exact d.lt_size_of_parent? hq

end Dom.Document

namespace Template

open BoundView.Dom.Document (Coherent Extends LowerTags)

variable {context : RenderContext κ} {d : Document κ} {root : NodeId} {t : Template}

/-- Just the parts that make a node have a handle. -/
theorem isRendered_place (h : t.Bare) (base : Nat) {p : Part} (hp : p ∈ (t.place base).preorder) :
    p.isRendered = p.rendered.isSome := by
  induction t generalizing base with
  | nil => cases hp
  | node q children rest ihc ihr =>
    obtain ⟨hbare, hchildren, hrest⟩ := h
    unfold place at hp
    by_cases hq : q.isRendered = true
    · rw [if_pos hq] at hp
      rcases List.mem_cons.mp hp with rfl | hp
      · rw [rendered_withRendered hq]
        cases q with
        | comment raw => cases hq
        | text raw rendered => rfl
        | element tag attributes rendered => rfl
      · rcases List.mem_append.mp hp with hp | hp
        · exact ihc hchildren _ hp
        · exact ihr hrest _ hp
    · rw [if_neg hq, hbare (Bool.not_eq_true _ ▸ hq)] at hp
      rcases List.mem_cons.mp hp with rfl | hp
      · cases p with
        | comment raw => rfl
        | text raw rendered => exact absurd rfl hq
        | element tag attributes rendered => exact absurd rfl hq
      · exact ihr hrest _ hp

/-- The parts that make a node have consecutive handles. -/
theorem map_rendered_place (h : t.Bare) (base : Nat) :
    ((t.place base).preorder.filter Part.isRendered).map Part.rendered =
      (List.range' base t.renderedSize).map some := by
  have hsome := fun p hp => isRendered_place h base (p := p) hp
  rw [← handles_place h]
  unfold handles
  generalize (t.place base).preorder = parts at hsome
  induction parts with
  | nil => rfl
  | cons p parts ih =>
    have hp := hsome p List.mem_cons_self
    have hparts := ih fun q hq => hsome q (List.mem_cons_of_mem _ hq)
    rw [List.filter_cons, List.filterMap_cons, hp]
    cases hrendered : p.rendered with
    | none => exact hparts
    | some node =>
      show p.rendered :: List.map Part.rendered _ = some node :: List.map some _
      rw [hrendered, hparts]

/-- **A mounted source.** The nodes of the result's trees are new, and the parts that have nodes have
them in preorder; the trees hold and hear what is shown of the source; and of the nodes that were there
only the root and its former children changed. -/
structure Renders (context : RenderContext κ) (d : Document κ) (root : NodeId) (r : Rendered κ) :
    Prop where
  fault : r.fault = none
  coherent : r.document.Coherent
  shown : (r.document.subtrees (r.document.children root)).map r.document.held =
    ((d.contents (d.children root)).prune Content.isShown).map (rendition context)
  handles : (r.template.preorder.filter Part.isRendered).map Part.rendered =
    (r.document.descendants root).map some
  fresh : ∀ x ∈ r.document.descendants root, d.size ≤ x
  /-- The old children are nobody's children, and their trees are whole. -/
  detached : ∀ c ∈ d.children root, r.document.parent? c = none
  intact : r.document.subtrees (d.children root) = d.subtrees (d.children root)
  kept : ∀ x < d.size, r.document.nodes[x]? = (d.nodes[x]?).map fun n =>
    { n with
      parent := if x ∈ d.children root then none else n.parent
      children := if x = root then r.document.children root else n.children }

section Slots

variable (hroot : root < d.size) (hfault : (t.mount context d root).fault = none)

include hroot hfault

/-- The slots after mounting, read off those of the document with the planted forest. -/
theorem getElem?_mount (x : NodeId) : (t.mount context d root).document.nodes[x]? =
    ((planted context d t).nodes[x]?).map fun n =>
      { n with
        parent :=
          if x ∈ (planted context d t).children d.size then some root
          else if x ∈ (planted context d t).children root then none else n.parent
        children :=
          if x = root then (planted context d t).children d.size
          else if x = d.size then [] else n.children } := by
  obtain ⟨_, cleared, hclear, happend⟩ := mount_steps hfault
  rw [mount_moves hclear happend]
  exact Document.getElem?_replaced (Nat.ne_of_lt hroot) hclear x

/-- The root has the planted trees as its children. -/
theorem children_mount_root : (t.mount context d root).document.children root =
    (planted context d t).children d.size := by
  have hextends : Extends d (planted context d t) := d.extends_plant (t.seeds context)
  obtain ⟨n, hn⟩ := (planted context d t).exists_node (Nat.lt_of_lt_of_le hroot hextends.size_le)
  have hslot := getElem?_mount hroot hfault root
  rw [hn] at hslot
  rw [Document.children_of_getElem? hslot]
  exact if_pos rfl

/-- Of the nodes that were there, the root has other children and its former ones have no parent. -/
theorem getElem?_mount_kept {x : NodeId} (hx : x < d.size) :
    (t.mount context d root).document.nodes[x]? = (d.nodes[x]?).map fun n =>
      { n with
        parent := if x ∈ d.children root then none else n.parent
        children :=
          if x = root then (t.mount context d root).document.children root else n.children } := by
  have hextends : Extends d (planted context d t) := d.extends_plant (t.seeds context)
  rw [children_mount_root hroot hfault]
  obtain ⟨_, cleared, hclear, happend⟩ := mount_steps hfault
  rw [mount_moves hclear happend]
  exact hextends.getElem?_replaced hroot (Nat.le_refl _) hclear hx

/-- **The trees below the root after mounting** have the new nodes in preorder, and hold and hear what the
template renders to. -/
theorem subtrees_mount (hcoherent : (t.mount context d root).document.Coherent) :
    ((t.mount context d root).document.subtrees
        ((t.mount context d root).document.children root)).preorder =
      List.range' (d.size + 1) (t.seeds context).size ∧
    ((t.mount context d root).document.subtrees
        ((t.mount context d root).document.children root)).map (t.mount context d root).document.held =
      t.seeds context := by
  have htops := (children_mount_root hroot hfault).trans (children_planted_fragment context d t)
  rw [htops]
  -- the planted nodes keep what they hold, list and hear
  refine hcoherent.subtrees_of_standing (standing_planted context d t) fun x hx _ => ?_
  have hx1 : x ≠ root := Nat.ne_of_gt (Nat.lt_trans hroot hx)
  have hx2 : x ≠ d.size := Nat.ne_of_gt hx
  unfold Document.content Document.children Document.listeners
  rw [getElem?_mount hroot hfault]
  cases (planted context d t).nodes[x]? with
  | none => exact ⟨rfl, rfl, rfl⟩
  | some n => simp [hx1, hx2]

end Slots

/-- **Mounting the children of a node** of a document that is in order. -/
theorem renders_mount (context : RenderContext κ) (hd : d.Coherent) (htags : d.LowerTags)
    (hroot : root < d.size) (hcontainer : (d.content root).isContainer = true) :
    Renders context d root ((ofContents (d.contents (d.children root))).mount context d root) := by
  have hseeds := seeds_ofContents context hd htags (d.children root)
  have hbare := bare_ofContents (d.contents (d.children root))
  have hsound := sound_shown context (d.contents (d.children root))
  generalize ofContents (d.contents (d.children root)) = t at hseeds hbare hsound ⊢
  have hfault := mount_fault_eq_none context t hd hroot hcontainer
  have hcoherent : (t.mount context d root).document.Coherent := coherent_mount hd hsound
  have htemplate := (mount_steps hfault).1
  have hkept := fun x => getElem?_mount_kept hroot hfault (x := x)
  obtain ⟨hpreorder, hheld⟩ := subtrees_mount hroot hfault hcoherent
  have hdescendants := (hcoherent.descendants_eq_preorder root).trans hpreorder
  refine ⟨hfault, hcoherent, ?_, ?_, ?_, ?_, ?_, hkept⟩
  · rw [hheld, hseeds]
  · rw [hdescendants, htemplate, map_rendered_place hbare, size_seeds]
  · intro x hx
    rw [hdescendants] at hx
    have := (List.mem_range'_1.mp hx).1
    omega
  · intro c hc
    have hlt := hd.child_lt hc
    obtain ⟨n, hn⟩ := d.exists_node hlt
    have hslot := hkept c hlt
    rw [hn] at hslot
    rw [Document.parent?_of_getElem? hslot]
    exact if_pos hc
  · refine hd.subtrees_congr hcoherent _ fun x hx => ?_
    have hxroot : x ≠ root := fun heq => hd.not_mem_subtrees_children root (heq ▸ hx)
    have hlt := hd.lt_of_mem_subtrees_children hx
    unfold Document.children
    rw [hkept x hlt]
    cases d.nodes[x]? with
    | none => rfl
    | some n => simp [hxroot]

/-! ## Documents that are edited and rendered into -/

/-- **What can be done to a document**: an operation, or mounting the children of a node. -/
inductive Change (κ : Type) where
  | edit (op : Operation κ)
  | mount (context : RenderContext κ) (root : NodeId)

/-- The document after a change. -/
def change (d : Document κ) : Change κ → Document κ
  | .edit op => d.perform op
  | .mount context root => ((ofContents (d.contents (d.children root))).mount context d root).document

/-- **The document that changes lead to**, from the empty one on. -/
def changed (changes : List (Change κ)) : Document κ := changes.foldl change .empty

/-- Everything a template is made into has its tag in lower case. -/
theorem lowerTag_seeds (context : RenderContext κ) (t : Template) :
    ∀ seed ∈ (t.seeds context).preorder, ∀ tag ∈ seed.content.tag?, Markup.LowerTag tag := by
  induction t with
  | nil => exact fun _ hseed => absurd hseed List.not_mem_nil
  | node p children rest ihc ihr =>
    unfold seeds
    cases hp : p.seed? context with
    | none => exact ihr
    | some made =>
      intro seed hseed tag htag
      rcases List.mem_cons.mp hseed with rfl | hseed
      · rw [Part.content_of_seed? hp] at htag
        cases p with
        | comment raw => cases htag
        | text raw rendered => cases htag
        | element tag' attributes rendered =>
          rw [← Option.mem_some_iff.mp htag]
          exact Markup.lowerTag_lowercase tag'
      · rcases List.mem_append.mp hseed with hseed | hseed
        · exact ihc seed hseed tag htag
        · exact ihr seed hseed tag htag

/-- Mounting keeps tags in lower case. -/
theorem lowerTags_mount (context : RenderContext κ) (root : NodeId) (t : Template) (h : d.LowerTags) :
    (t.mount context d root).document.LowerTags := by
  have hpush : (d.push .fragment).LowerTags :=
    h.push fun _ htag => absurd htag (Option.not_mem_none _)
  have hplanted : (planted context d t).LowerTags := hpush.plant (fragment_lt d) (lowerTag_seeds context t)
  rcases mount_cases context d root t with hsame | ⟨cleared, hclear, hsame | happend⟩
  · rw [hsame]
    exact hplanted
  · rw [hsame]
    exact hplanted.clear hclear
  · exact (hplanted.clear hclear).append happend

/-- **One change keeps a document in order.** -/
theorem change_inOrder (hd : d.Coherent) (htags : d.LowerTags) (c : Change κ) :
    (change d c).Coherent ∧ (change d c).LowerTags := by
  cases c with
  | edit op => exact ⟨hd.perform op, htags.perform op⟩
  | mount context root =>
    exact ⟨coherent_mount hd (sound_shown context _), lowerTags_mount context root _ htags⟩

theorem changed_inOrder (changes : List (Change κ)) :
    (changed changes : Document κ).Coherent ∧ (changed changes : Document κ).LowerTags := by
  have run : ∀ d : Document κ, d.Coherent → d.LowerTags →
      (changes.foldl change d).Coherent ∧ (changes.foldl change d).LowerTags := by
    induction changes with
    | nil => exact fun d hd htags => ⟨hd, htags⟩
    | cons c changes ih =>
      intro d hd htags
      obtain ⟨hd', htags'⟩ := change_inOrder hd htags c
      exact ih (change d c) hd' htags'
  exact run _ Document.coherent_empty Document.lowerTags_empty

/-- **Mounting renders exactly what is shown of the source.** In every document that operations and
mounts lead to, for every root that may have children and whatever the context answers: nothing fails,
the trees under the root are the shown trees of the source, rendered node by node; the handles are the
new nodes in preorder; and nothing else of the document changes but the root's list of children and the
parents of those that were in it. -/
theorem mount_renders (changes : List (Change κ)) (context : RenderContext κ) {root : NodeId}
    (hroot : root < (changed changes : Document κ).size)
    (hcontainer : ((changed changes : Document κ).content root).isContainer = true) :
    Renders context (changed changes) root
      ((ofContents ((changed changes).contents ((changed changes).children root))).mount context
        (changed changes) root) := by
  obtain ⟨hd, htags⟩ := changed_inOrder changes
  exact renders_mount context hd htags hroot hcontainer

/-- A list whose entries hold a comment, a bound input with an event, and a text with a marker. -/
def sampleChanges : List (Change String) :=
  [.edit (.createElement "ul"), .edit (.append 0 1), .edit (.createComment " note "),
    .edit (.append 1 2), .edit (.createElement "input"), .edit (.setAttribute 3 "v-model" " name "),
    .edit (.setAttribute 3 "class" "wide"), .edit (.setAttribute 3 "@input" "check"),
    .edit (.append 1 3), .edit (.createText "Hi \x7b\x7bname\x7d\x7d"), .edit (.append 1 4),
    .edit (.createText " \n"), .edit (.append 1 5)]

/-- A context in which one key has a text. -/
def sampleContext : RenderContext String :=
  ⟨fun key => if key = "name" then some "Ada" else none, .empty, ⟨id, id⟩⟩

theorem mount_renders_list :
    1 < (changed sampleChanges).size ∧ ((changed sampleChanges).content 1).isContainer = true ∧
      Renders sampleContext (changed sampleChanges) 1
        ((ofContents ((changed sampleChanges).contents ((changed sampleChanges).children 1))).mount
          sampleContext (changed sampleChanges) 1) :=
  have hroot : 1 < (changed sampleChanges).size := by decide +kernel
  have hcontainer : ((changed sampleChanges).content 1).isContainer = true := by decide +kernel
  ⟨hroot, hcontainer, mount_renders sampleChanges sampleContext hroot hcontainer⟩

end Template

end BoundView
