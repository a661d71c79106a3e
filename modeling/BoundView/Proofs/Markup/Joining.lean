import BoundView.Proofs.Markup.RoundTrip

/-!
# Texts side by side

Markup writes two texts side by side as one, and an empty text as nothing. So what comes back from the
markup of a forest is the forest with its empty texts dropped and each run of texts joined.

A forest is **writable** when it is well formed but for this: texts may be empty and may stand side by
side. It is **filled** when none of its texts is empty.

Main statements: `render_joined` and `render_pruned`, joining and dropping leave the markup as it is;
`wellFormed_joined`; and `parse_render_joined`, the markup of a writable and filled forest parses to the
joined forest.
-/

namespace BoundView.Markup

open BoundView.Dom (Attributes Content Element)

/-! ## Joining and dropping -/

/-- A text in front of a forest, joined with the text that the forest begins with. -/
def joinText (data : String) : Forest Content → Forest Content
  | .node (.text more) _ rest => .node (.text (data ++ more)) .nil rest
  | f => .node (.text data) .nil f

/-- **Each run of texts side by side as one text**, at every depth. Texts have no children. -/
def joined : Forest Content → Forest Content
  | .nil => .nil
  | .node (.text data) _ rest => joinText data (joined rest)
  | .node c children rest => .node c (joined children) (joined rest)

/-- **The forest without its empty texts**, at every depth. -/
def pruned : Forest Content → Forest Content
  | .nil => .nil
  | .node (.text data) children rest =>
    if data = "" then pruned rest else .node (.text data) (pruned children) (pruned rest)
  | .node c children rest => .node c (pruned children) (pruned rest)

/-! ## The markup stays as it is -/

theorem escape_append (cs ds : List Char) : escape (cs ++ ds) = escape cs ++ escape ds :=
  List.flatMap_append

theorem renderNode_text_append (verbatim : Bool) (data more : String) :
    renderNode verbatim (.text (data ++ more)) [] =
      renderNode verbatim (.text data) [] ++ renderNode verbatim (.text more) [] := by
  unfold renderNode
  dsimp only
  rw [String.toList_append]
  split
  · rfl
  · rw [escape_append]

theorem render_joinText (verbatim : Bool) (data : String) (f : Forest Content) :
    render verbatim (joinText data f) =
      renderNode verbatim (.text data) [] ++ render verbatim f := by
  unfold joinText
  split
  · show renderNode verbatim (.text (data ++ _)) [] ++ _ = _
    rw [renderNode_text_append, List.append_assoc]
    rfl
  · rfl

/-- **Joining texts leaves the markup as it is.** -/
theorem render_joined (verbatim : Bool) (f : Forest Content) :
    render verbatim (joined f) = render verbatim f := by
  induction f generalizing verbatim with
  | nil => rfl
  | node c children rest ihc ihr =>
    cases c with
    | text data =>
      show render verbatim (joinText data (joined rest)) = _
      rw [render_joinText, ihr]
      rfl
    | element _ | comment _ | document | fragment =>
      show renderNode verbatim _ (render _ (joined children)) ++ render verbatim (joined rest) = _
      rw [ihc, ihr]
      rfl

/-- **Dropping empty texts leaves the markup as it is.** -/
theorem render_pruned (verbatim : Bool) (f : Forest Content) :
    render verbatim (pruned f) = render verbatim f := by
  induction f generalizing verbatim with
  | nil => rfl
  | node c children rest ihc ihr =>
    cases c with
    | text data =>
      unfold pruned
      split
      · rename_i hempty
        have hnothing : renderNode verbatim (.text data) (render false children) = [] := by
          rw [hempty]
          cases verbatim <;> rfl
        show _ = renderNode verbatim (.text data) (render false children) ++ render verbatim rest
        rw [hnothing, ihr]
        rfl
      · show renderNode verbatim _ _ ++ render verbatim (pruned rest) = _
        rw [ihr]
        rfl
    | element _ | comment _ | document | fragment =>
      show renderNode verbatim _ (render _ (pruned children)) ++ render verbatim (pruned rest) = _
      rw [ihc, ihr]
      rfl

/-! ## Writable forests -/

/-- **A forest that markup can write** up to empty texts and texts side by side. -/
def Writable : Forest Content → Prop
  | .nil => True
  | .node (.element e) children rest => IsElement e children ∧ Writable children ∧ Writable rest
  | .node (.text _) children rest => children = .nil ∧ Writable rest
  | .node (.comment data) children rest =>
    ¬ ['-', '-', '>'] <:+: data.toList ∧ children = .nil ∧ Writable rest
  | .node .document _ _ | .node .fragment _ _ => False

/-- What stands under and beside a writable node is writable. -/
theorem writable_parts {c : Content} {children rest : Forest Content}
    (h : Writable (.node c children rest)) : Writable children ∧ Writable rest := by
  cases c with
  | element e => exact h.2
  | text data => exact ⟨h.1 ▸ trivial, h.2⟩
  | comment data => exact ⟨h.2.1 ▸ trivial, h.2.2⟩
  | document => exact h.elim
  | fragment => exact h.elim

/-- What is well formed is writable. -/
theorem WellFormed.writable {f : Forest Content} (hf : WellFormed f) : Writable f := by
  induction f with
  | nil => trivial
  | node c children rest ihc ihr =>
    cases c with
    | element e => exact ⟨hf.1, ihc hf.2.1, ihr hf.2.2⟩
    | text data => exact ⟨hf.2.1, ihr hf.2.2.2⟩
    | comment data => exact ⟨hf.1, hf.2.1, ihr hf.2.2⟩
    | document => exact hf.elim
    | fragment => exact hf.elim

/-- **A forest without empty texts.** -/
def Filled (f : Forest Content) : Prop := Content.text "" ∉ f.preorder

theorem writable_append {f g : Forest Content} (hf : Writable f) (hg : Writable g) :
    Writable (f ++ g) := by
  induction f with
  | nil => exact hg
  | node c children rest _ ih =>
    cases c with
    | element e => exact ⟨hf.1, hf.2.1, ih hf.2.2⟩
    | text data => exact ⟨hf.1, ih hf.2⟩
    | comment data => exact ⟨hf.1, hf.2.1, ih hf.2.2⟩
    | document => exact hf.elim
    | fragment => exact hf.elim

theorem filled_append {f g : Forest Content} (hf : Filled f) (hg : Filled g) : Filled (f ++ g) := by
  unfold Filled
  rw [Forest.preorder_append]
  exact fun hmem => (List.mem_append.mp hmem).elim hf hg

theorem filled_node {c : Content} {children rest : Forest Content} :
    Filled (.node c children rest) ↔ c ≠ .text "" ∧ Filled children ∧ Filled rest := by
  unfold Filled
  show Content.text "" ∉ c :: (children.preorder ++ rest.preorder) ↔ _
  rw [List.mem_cons, List.mem_append, not_or, not_or, eq_comm]

/-- Dropping the empty texts fills a forest. -/
theorem filled_pruned (f : Forest Content) : Filled (pruned f) := by
  induction f with
  | nil => exact List.not_mem_nil
  | node c children rest ihc ihr =>
    cases c with
    | text data =>
      unfold pruned
      split
      · exact ihr
      · rename_i hdata
        exact filled_node.mpr ⟨fun h => hdata (Content.text.inj h), ihc, ihr⟩
    | element _ | comment _ | document | fragment =>
      exact filled_node.mpr ⟨Content.noConfusion, ihc, ihr⟩

/-- What a raw element holds is one text, or nothing. -/
theorem rawContent_cases {tag : String} {f : Forest Content} (h : RawContent tag f) :
    f = .nil ∨ ∃ data, f = .single (.text data) := by
  unfold RawContent at h
  split at h
  · exact .inl rfl
  · exact .inr ⟨_, rfl⟩
  · exact h.elim

/-- An element stays one that markup can write when its children become fewer: nothing comes of no
children, and what a raw element holds stays or goes. -/
theorem IsElement.of_children {e : Element} {f g : Forest Content} (h : IsElement e f)
    (hnil : f = .nil → g = .nil) (hraw : ∀ data, f = .single (.text data) → g = f ∨ g = .nil) :
    IsElement e g where
  tag := h.tag
  names := h.names
  distinct := h.distinct
  void hvoid := hnil (h.void hvoid)
  raw htag := by
    have hf := h.raw htag
    rcases rawContent_cases hf with hf' | ⟨data, hf'⟩
    · rw [hnil hf']
      trivial
    · rcases hraw data hf' with hg | hg
      · rwa [hg]
      · rw [hg]
        trivial

theorem pruned_single_text (data : String) :
    pruned (.single (.text data)) = .single (.text data) ∨ pruned (.single (.text data)) = .nil := by
  show (if data = "" then _ else _) = _ ∨ (if data = "" then _ else _) = _
  by_cases h : data = ""
  · rw [if_pos h]
    exact .inr rfl
  · rw [if_neg h]
    exact .inl rfl

/-- What is writable stays so when its empty texts are dropped. -/
theorem writable_pruned {f : Forest Content} (hf : Writable f) : Writable (pruned f) := by
  induction f with
  | nil => trivial
  | node c children rest ihc ihr =>
    cases c with
    | element e =>
      refine ⟨hf.1.of_children (fun h => ?_) (fun data h => ?_), ihc hf.2.1, ihr hf.2.2⟩
      · rw [h]
        rfl
      · rw [h]
        exact pruned_single_text data
    | text data =>
      obtain ⟨hnil, hrest⟩ := hf
      subst hnil
      unfold pruned
      split
      · exact ihr hrest
      · exact ⟨rfl, ihr hrest⟩
    | comment data =>
      obtain ⟨hdata, hnil, hrest⟩ := hf
      subst hnil
      exact ⟨hdata, rfl, ihr hrest⟩
    | document => exact hf.elim
    | fragment => exact hf.elim

/-! ## Joined forests are well formed -/

/-- Behind a text that was joined with what follows it comes no text. -/
theorem wellFormed_joinText {data : String} {f : Forest Content} (hdata : data ≠ "")
    (hf : WellFormed f) : WellFormed (joinText data f) := by
  have hne : data.toList ≠ [] := fun h => hdata (String.toList_eq_nil_iff.mp h)
  unfold joinText
  split
  · rename_i more _ rest
    obtain ⟨_, _, hfirst, hrest⟩ := hf
    refine ⟨?_, rfl, hfirst, hrest⟩
    rw [String.toList_append]
    exact List.append_ne_nil_of_left_ne_nil hne _
  · rename_i hother
    refine ⟨hne, rfl, ?_, hf⟩
    unfold beginsWithText
    split
    · rename_i more children rest
      exact absurd rfl (hother more children rest)
    · rfl

/-- **Writable and filled, a forest becomes well formed** when its texts are joined. -/
theorem wellFormed_joined {f : Forest Content} (hf : Writable f) (hfilled : Filled f) :
    WellFormed (joined f) := by
  induction f with
  | nil => trivial
  | node c children rest ihc ihr =>
    obtain ⟨hc, hfc, hfr⟩ := filled_node.mp hfilled
    cases c with
    | element e =>
      refine ⟨hf.1.of_children (fun h => ?_) (fun data h => ?_), ihc hf.2.1 hfc, ihr hf.2.2 hfr⟩
      · rw [h]
        rfl
      · rw [h]
        exact .inl rfl
    | text data => exact wellFormed_joinText (fun h => hc (h ▸ rfl)) (ihr hf.2 hfr)
    | comment data =>
      obtain ⟨hdata, hnil, hrest⟩ := hf
      subst hnil
      exact ⟨hdata, rfl, ihr hrest hfr⟩
    | document => exact hf.elim
    | fragment => exact hf.elim

/-! ## What markup keeps of a joined forest -/

theorem map_written_joinText (data : String) (f : Forest Content) :
    (joinText data f).map written = joinText data (f.map written) := by
  cases f with
  | nil => rfl
  | node c children rest => cases c <;> rfl

theorem map_written_joined (f : Forest Content) :
    (joined f).map written = joined (f.map written) := by
  induction f with
  | nil => rfl
  | node c children rest ihc ihr =>
    cases c with
    | text data =>
      show (joinText data (joined rest)).map written = joinText data (joined (rest.map written))
      rw [map_written_joinText, ihr]
    | element _ | comment _ | document | fragment =>
      show Forest.node _ ((joined children).map written) ((joined rest).map written) = _
      rw [ihc, ihr]
      rfl

theorem map_written_pruned (f : Forest Content) :
    (pruned f).map written = pruned (f.map written) := by
  induction f with
  | nil => rfl
  | node c children rest ihc ihr =>
    cases c with
    | text data =>
      show (pruned (.node (.text data) children rest)).map written =
        pruned (.node (.text data) (children.map written) (rest.map written))
      unfold pruned
      split
      · exact ihr
      · show Forest.node _ ((pruned children).map written) ((pruned rest).map written) = _
        rw [ihc, ihr]
        rfl
    | element _ | comment _ | document | fragment =>
      show Forest.node _ ((pruned children).map written) ((pruned rest).map written) = _
      rw [ihc, ihr]
      rfl

/-- **The markup of a writable and filled forest parses to the joined forest.** -/
theorem parse_render_joined {f : Forest Content} (hf : Writable f) (hfilled : Filled f) :
    parse (render false f) = ⟨(joined f).map written, none, none⟩ := by
  rw [← render_joined, parse_render (wellFormed_joined hf hfilled)]

/-- **The markup of a writable forest parses to the joined forest without its empty texts.** -/
theorem parse_render_pruned {f : Forest Content} (hf : Writable f) :
    parse (render false f) = ⟨(joined (pruned f)).map written, none, none⟩ := by
  rw [← render_pruned, parse_render_joined (writable_pruned hf) (filled_pruned f)]

end BoundView.Markup
