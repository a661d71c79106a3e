import BoundView.Proofs.Markup.Skeleton
import BoundView.Proofs.Rendering.Mounting
import BoundView.Proofs.Tree.Contents
import BoundView.Proofs.Tree.Lowercase

/-!
# What a template renders to, as markup

A template that is compiled from writable contents renders to writable contents again, whatever its
texts resolve to: attributes are copied, never filled in, and a text comes only where a text was. The
exception are verbatim elements, in which nothing is escaped.

Which elements are made, and with which attributes, the lookup does not decide. So the skeleton of what
is rendered does not depend on it.

Main statements: `writable_shown`, `skeleton_shown`, and `contents_mount`, the root of a mounted
template holds just what was rendered.
-/

namespace BoundView

open BoundView.Dom (Attribute Attributes Content Document Element NodeId Seed)
open BoundView.Markup (IsAttributeName IsElement IsTag Plain RawContent Writable holdsVerbatim isVerbatim
  lowercase_of_isTag skeleton written)

/-! ## The attributes of a rendered element -/

/-- A plain attribute keeps its name. -/
theorem AttributeClass.eq_of_plain {name plain : String}
    (h : AttributeClass.ofName name = .plain plain) : plain = name := by
  unfold AttributeClass.ofName at h
  split at h
  · cases h
  · cases h
  · exact (AttributeClass.plain.inj h).symm

namespace Part

variable {p : Part}

/-- The plain attributes have names of attributes of the part. -/
theorem exists_of_mem_plain {entry : String × String} (h : entry ∈ p.plain) :
    ∃ a ∈ p.attributes, a.name = entry.1 := by
  obtain ⟨a, ha, hclass⟩ := List.mem_filterMap.mp h
  refine ⟨a, ha, ?_⟩
  split at hclass
  · rename_i hplain
    cases hclass
    exact (AttributeClass.eq_of_plain hplain).symm
  · cases hclass

/-- Setting attributes one after the other brings in no names but theirs, and none twice. -/
theorem names_foldl_set {names : List String} {entries : List (String × String)}
    (hentries : ∀ entry ∈ entries, entry.1 ∈ names) {as : Attributes} (hnodup : as.names.Nodup)
    (hmem : ∀ name ∈ as.names, name ∈ names) :
    (entries.foldl (fun as entry => as.set entry.1 entry.2) as).names.Nodup ∧
      ∀ name ∈ (entries.foldl (fun as entry => as.set entry.1 entry.2) as).names, name ∈ names := by
  induction entries generalizing as with
  | nil => exact ⟨hnodup, hmem⟩
  | cons entry rest ih =>
    refine ih (fun e he => hentries e (List.mem_cons_of_mem _ he))
      (Attributes.nodup_names_set hnodup _ _) fun name hname => ?_
    rw [Attributes.names_set] at hname
    split at hname
    · exact hmem name hname
    · rcases List.mem_append.mp hname with hname | hname
      · exact hmem name hname
      · rw [List.mem_singleton.mp hname]
        exact hentries entry List.mem_cons_self

/-- **The attributes of a part's node** have different names, all of them names of the part. -/
theorem names_nodeAttributes (p : Part) :
    p.nodeAttributes.names.Nodup ∧ ∀ name ∈ p.nodeAttributes.names, name ∈ p.attributes.names := by
  have hnames : ∀ entry ∈ p.plain, entry.1 ∈ p.attributes.names := by
    intro entry hentry
    obtain ⟨a, ha, hname⟩ := exists_of_mem_plain hentry
    exact List.mem_map.mpr ⟨a, ha, hname⟩
  exact names_foldl_set hnames List.nodup_nil fun _ h => absurd h List.not_mem_nil

/-- The node of an element part is one that markup can write, over the children it is given. -/
theorem isElement_derived {tag : String} {attributes : Attributes} {f g : Forest Content}
    {live value : Option String} (h : IsElement ⟨tag, attributes, live⟩ f)
    (hvoid : f = .nil → g = .nil) (hraw : Markup.isRaw tag = true → RawContent tag g) :
    IsElement ⟨Text.lowercase tag, (Part.element tag attributes none).nodeAttributes, value⟩ g := by
  obtain ⟨hdistinct, hmem⟩ := (Part.element tag attributes none).names_nodeAttributes
  rw [lowercase_of_isTag h.tag]
  refine ⟨h.tag, fun a ha => ?_, hdistinct, fun hv => hvoid (h.void hv), hraw⟩
  obtain ⟨b, hb, hname⟩ := List.mem_map.mp (hmem a.name (List.mem_map_of_mem ha))
  rw [← hname]
  exact h.names b hb

end Part

namespace Template

variable {κ : Type} {context context' : RenderContext κ}

/-! ## What is rendered is writable -/

/-- **What a template renders to**, as contents. -/
def shown (context : RenderContext κ) (t : Template) : Forest Content :=
  (t.seeds context).map Seed.content

/-- An element is rendered over what its children are rendered to. -/
theorem shown_element (context : RenderContext κ) (e : Element) (children rest : Forest Content) :
    (ofContents (.node (.element e) children rest)).shown context =
      .node ((Part.element e.tag e.attributes none).derived context.lookup context.missing)
        ((ofContents children).shown context) ((ofContents rest).shown context) := rfl

/-- A text is left out, or rendered to a text. -/
theorem shown_text (context : RenderContext κ) (data : String) (children rest : Forest Content) :
    (ofContents (.node (.text data) children rest)).shown context = (ofContents rest).shown context ∨
      ∃ resolved, (ofContents (.node (.text data) children rest)).shown context =
        .node (.text resolved) .nil ((ofContents rest).shown context) := by
  have hcompiled : ofContents (.node (.text data) children rest) =
      if (Text.trim data.toList).isEmpty then ofContents rest
      else .node (.text data none) .nil (ofContents rest) := rfl
  rw [hcompiled]
  split
  · exact .inl rfl
  · exact .inr ⟨_, rfl⟩

/-- What a raw element is rendered with is again one text or nothing. -/
theorem rawContent_shown {tag : String} {f : Forest Content} (hverbatim : isVerbatim tag = false)
    (hf : RawContent tag f) : RawContent tag ((ofContents f).shown context) := by
  rcases Markup.rawContent_cases hf with rfl | ⟨data, rfl⟩
  · trivial
  · rcases shown_text context data .nil .nil with hnone | ⟨resolved, hsome⟩
    · show RawContent tag ((ofContents (.node (.text data) .nil .nil)).shown context)
      rw [hnone]
      trivial
    · show RawContent tag ((ofContents (.node (.text data) .nil .nil)).shown context)
      rw [hsome]
      exact fun h => absurd (hverbatim.symm.trans h) Bool.false_ne_true

/-- **A template renders to what markup can write**, if it is compiled from such contents and renders
no verbatim element. -/
theorem writable_shown {f : Forest Content} (hf : Writable f)
    (hplain : Plain ((ofContents f).shown context)) : Writable ((ofContents f).shown context) := by
  induction f with
  | nil => trivial
  | node c children rest ihc ihr =>
    cases c with
    | element e =>
      obtain ⟨helement, hchildren, hrest⟩ := hf
      rw [shown_element] at hplain ⊢
      obtain ⟨hverbatim, hpc, hpr⟩ := Markup.plain_node.mp hplain
      have htag : isVerbatim e.tag = false := by
        rw [← lowercase_of_isTag helement.tag]
        exact hverbatim
      refine ⟨Part.isElement_derived ⟨helement.tag, helement.names, helement.distinct, helement.void,
        helement.raw⟩ (fun hnil => ?_) fun hraw => rawContent_shown htag (helement.raw hraw),
        ihc hchildren hpc, ihr hrest hpr⟩
      rw [hnil]
      rfl
    | text data =>
      rcases shown_text context data children rest with hnone | ⟨resolved, hsome⟩
      · rw [hnone] at hplain ⊢
        exact ihr hf.2 hplain
      · rw [hsome] at hplain ⊢
        exact ⟨rfl, ihr hf.2 (Markup.plain_node.mp hplain).2.2⟩
    | comment data => exact ihr hf.2.2 hplain
    | document => exact hf.elim
    | fragment => exact hf.elim

/-- **Proper**: nothing lies under a text or a comment. -/
def Proper : Template → Prop
  | .nil => True
  | .node (.element ..) children rest => Proper children ∧ Proper rest
  | .node _ children rest => children = .nil ∧ Proper rest

/-- Compiled templates are proper. -/
theorem proper_ofContents (f : Forest Content) : (ofContents f).Proper := by
  induction f with
  | nil => trivial
  | node c children rest ihc ihr =>
    cases c with
    | element e => exact ⟨ihc, ihr⟩
    | text data =>
      unfold ofContents
      split
      · exact ihr
      · exact ⟨rfl, ihr⟩
    | comment data => exact ⟨rfl, ihr⟩
    | document => exact ihr
    | fragment => exact ihr

/-- **A proper template renders to a sound forest.** -/
theorem Proper.sound {t : Template} (h : t.Proper) (context : RenderContext κ) :
    (t.shown context).Sound := by
  induction t with
  | nil => trivial
  | node p children rest ihc ihr =>
    cases p with
    | comment raw => exact ihr h.2
    | text raw rendered =>
      obtain ⟨rfl, hrest⟩ := h
      exact ⟨Content.sound_text _, fun h => absurd rfl h, trivial, ihr hrest⟩
    | element tag attributes rendered =>
      exact ⟨Content.sound_element (Part.names_nodeAttributes (.element tag attributes rendered)).1,
        fun _ => rfl, ihc h.1, ihr h.2⟩

/-- A template renders to a sound forest, whatever it is compiled from. -/
theorem sound_shown (context : RenderContext κ) (f : Forest Content) :
    ((ofContents f).shown context).Sound := (proper_ofContents f).sound context

/-! ## What the lookup does not decide -/

/-- **The elements of what is rendered** do not depend on the lookup. -/
theorem skeleton_shown (context context' : RenderContext κ) (t : Template) :
    skeleton (t.shown context') = skeleton (t.shown context) := by
  induction t with
  | nil => rfl
  | node p children rest ihc ihr =>
    cases p with
    | comment raw => exact ihr
    | text raw rendered => exact ihr
    | element tag attributes rendered =>
      show Forest.node _ (skeleton (shown context' children)) (skeleton (shown context' rest)) =
        Forest.node _ (skeleton (shown context children)) (skeleton (shown context rest))
      rw [ihc, ihr]

/-- Neither does it matter to whether a verbatim element is rendered. -/
theorem plain_shown (context context' : RenderContext κ) (t : Template)
    (h : Plain (t.shown context)) : Plain (t.shown context') := by
  induction t with
  | nil => exact h
  | node p children rest ihc ihr =>
    cases p with
    | comment raw => exact ihr h
    | text raw rendered =>
      obtain ⟨_, hchildren, hrest⟩ := Markup.plain_node.mp h
      exact Markup.plain_node.mpr ⟨rfl, ihc hchildren, ihr hrest⟩
    | element tag attributes rendered =>
      obtain ⟨hverbatim, hchildren, hrest⟩ := Markup.plain_node.mp h
      exact Markup.plain_node.mpr ⟨hverbatim, ihc hchildren, ihr hrest⟩

/-! ## What the root of a mounted template holds -/

open BoundView.Dom.Document (Coherent)

variable {d : Document κ} {root : NodeId} {t : Template}

/-- Nodes that were there hold what they held. -/
theorem content_mount (h : (t.mount context d root).fault = none) {x : NodeId} (hx : x < d.size) :
    (t.mount context d root).document.content x = d.content x := by
  rw [(mount_same h).1.content]
  unfold planted
  rw [Document.content_plant _ _ _ (Nat.lt_trans hx (fragment_lt d)), Document.content_push,
    if_neg (Nat.ne_of_lt hx)]

/-- The document of a planted template is coherent. -/
theorem coherent_planted (hd : d.Coherent) (hsound : (t.shown context).Sound) :
    (planted context d t).Coherent := by
  have hpushed : (d.push .fragment).Coherent := hd.push List.nodup_nil
  refine hpushed.plant (fragment_lt d) ?_ hsound
  rw [Document.content_push, if_pos rfl]
  rfl

/-- Mounting leaves a coherent document, also where it fails. -/
theorem coherent_mount (hd : d.Coherent) (hsound : (t.shown context).Sound) :
    (t.mount context d root).document.Coherent := by
  have hplanted := coherent_planted hd hsound
  rcases mount_cases context d root t with hsame | ⟨cleared, hclear, hsame | happend⟩
  · rw [hsame]
    exact hplanted
  · rw [hsame]
    exact hplanted.clear hclear
  · exact (hplanted.clear hclear).append happend

/-- A node that is born with listeners keeps coherence just as one without. -/
theorem coherent_pushPlaced (hd : d.Coherent) {seed : Seed κ}
    (hnames : seed.content.attributes.names.Nodup) :
    (d.pushPlaced ⟨seed, none, []⟩).Coherent := by
  have hcontent : ∀ x,
      (d.pushPlaced ⟨seed, none, []⟩).content x = (d.push seed.content).content x := by
    intro x
    unfold Document.content
    rw [Document.getElem?_pushPlaced, Document.getElem?_push]
    split <;> rfl
  refine (hd.push hnames).of_sameLinks ⟨?_, fun x => ?_, fun x => ?_⟩ (fun x => ?_) fun x => ?_
  · rw [Document.size_pushPlaced, Document.size_push]
  · unfold Document.parent?
    rw [Document.getElem?_pushPlaced, Document.getElem?_push]
    split <;> rfl
  · unfold Document.children
    rw [Document.getElem?_pushPlaced, Document.getElem?_push]
    split <;> rfl
  · rw [hcontent]
  · rw [hcontent]
    exact (hd.push hnames).names x

/-- Rendering to the end of a node's children leaves a coherent document, also where it fails. -/
theorem coherent_materialize (hd : d.Coherent) (ht : t.Proper) :
    (t.materialize context d root).document.Coherent := by
  rcases materialize_cases context d root t with ⟨hholds, heq⟩ | heq | ⟨p, seed, _, hseed, heq⟩
  · obtain ⟨n, hn, hcontainer⟩ := (Option.any_eq_true _ _).mp hholds
    rw [heq]
    refine hd.plant (Document.lt_size_of_getElem? _ hn) ?_ (ht.sound context)
    rw [Document.content_of_getElem? hn]
    exact hcontainer
  · rw [heq]
    exact hd
  · rw [heq]
    refine coherent_pushPlaced hd ?_
    rw [Part.content_of_seed? hseed]
    cases p with
    | comment raw => exact List.nodup_nil
    | text raw rendered => exact List.nodup_nil
    | element tag attributes rendered => exact (Part.names_nodeAttributes _).1

/-- **The root of a mounted template holds what the template renders to.** -/
theorem contents_mount (hd : d.Coherent) (hroot : root < d.size) (hsound : (t.shown context).Sound)
    (h : (t.mount context d root).fault = none) :
    (t.mount context d root).document.contents ((t.mount context d root).document.children root) =
      t.shown context := by
  have hcoherent : (t.mount context d root).document.Coherent := coherent_mount hd hsound
  have hsame := (mount_same h).1
  obtain ⟨_, cleared, hclear, happend⟩ := mount_steps h
  have hmoves := mount_moves hclear happend
  have hne : root ≠ d.size := Nat.ne_of_lt hroot
  have hroot' : root < cleared.size := by
    rw [((planted context d t).sameContent_clear hclear).size, size_planted]
    exact Nat.lt_of_lt_of_le hroot (by omega)
  have hchildren : ∀ x, (t.mount context d root).document.children x =
      (if x = d.size then [] else if x = root then [] else (planted context d t).children x) ++
        if x = root then (t.seeds context).tops (d.size + 1) else [] := by
    intro x
    rw [hmoves, Document.children_moveChildren _ hroot', (planted context d t).children_clear hclear,
      (planted context d t).children_clear hclear, if_neg hne.symm, children_planted_fragment]
  rw [hchildren root, if_neg hne, if_pos rfl, if_pos rfl, List.nil_append]
  refine hcoherent.contents_of_standing (standing_planted context d t) fun x hx _ => ?_
  have hx1 : x ≠ d.size := Nat.ne_of_gt hx
  have hx2 : x ≠ root := Nat.ne_of_gt (Nat.lt_trans hroot hx)
  refine ⟨hsame.content x, ?_⟩
  rw [hchildren x, if_neg hx1, if_neg hx2, if_neg hx2, List.append_nil]

end Template

end BoundView
