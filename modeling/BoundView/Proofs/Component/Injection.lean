import BoundView.Proofs.Component.Agreement
import BoundView.Proofs.Rendering.Markup
import BoundView.Proofs.Tree.Reparsing

/-!
# Data inject no markup

Whatever the values of a component's keys are, markup among them, the markup of its root parses again
to what the root holds: the elements that the template has, and texts. A value comes out of it as the
text it was put in as, never as a tag, a comment or a reference. So two components that are made of one
source have the same elements, whatever their data, their options and the writes to them.

In verbatim elements nothing is escaped, so there this holds of no component.

Main statement: `markup_of_data`.
-/

namespace BoundView

open BoundView.Dom (Content Document NodeId)
open BoundView.Dom.Document (Reparses SameLinks)
open BoundView.Markup (Plain Writable holdsVerbatim skeleton written)

variable {κ σ : Type}

/-! ## What the root of a component holds -/

/-- What rendering reads when the keys have these values. -/
def valuesContext (options : Options) (values : String → Option Value) : RenderContext (Action κ) where
  lookup key := (values key).map Value.text
  missing := options.missingKey
  binder := Component.binder 0

variable {d : Document (Action κ)} {options : Options} {root : NodeId}

/-- What rendering the root gives under these values. -/
def renderedWith (d : Document (Action κ)) (options : Options) (root : NodeId)
    (values : String → Option Value) : Template.Rendered (Action κ) :=
  (Template.ofContents (d.contents (d.children root))).mount (valuesContext options values) d root

variable (options) in
/-- **Rendering gives the page**, displayed under the values. -/
theorem Reference.frames_renderedWith (hd : d.Coherent) (hroot : root < d.size)
    (hcontainer : (d.content root).isContainer = true) (values : String → Option Value) :
    (Reference.ofDocument d options root).Frames (renderedWith d options root values).document ∧
      Displays (renderedWith d options root values).document
        (fun key => (values key).map Value.text) options.missingKey (fun _ _ => False)
        (Reference.ofDocument d options root).template := by
  have hbare := Template.bare_ofContents (d.contents (d.children root))
  have hfault := Template.mount_fault_eq_none (valuesContext (κ := κ) options values)
    (Template.ofContents (d.contents (d.children root))) hd hroot hcontainer
  have hpage := Template.mount_fault_eq_none
    ⟨fun _ => none, options.missingKey, Component.binder (κ := κ) 0⟩
    (Template.ofContents (d.contents (d.children root))) hd hroot hcontainer
  obtain ⟨hlinks, htemplate, hothers⟩ := Template.mount_congr hbare hd hroot hpage hfault
  have hdisplays := (Template.mount_displays hbare hfault).1
  rw [htemplate] at hdisplays
  exact ⟨⟨hlinks, hothers⟩, hdisplays⟩

/-- **What the root of a component holds**, but for live values: what its template renders to. -/
theorem Shows.contents (hd : d.Coherent) (hroot : root < d.size)
    (hcontainer : (d.content root).isContainer = true) {values : String → Option Value}
    {w : World κ σ} (h : Shows (Reference.ofDocument d options root) values w) :
    (w.component 0).root = root ∧ root < (w.document 0).size ∧
      holdsVerbatim ((w.document 0).content root) = holdsVerbatim (d.content root) ∧
        ((w.document 0).contents ((w.document 0).children root)).map written =
          ((Template.ofContents (d.contents (d.children root))).shown
            (valuesContext (κ := κ) options values)).map written := by
  obtain ⟨hr, _, hframes, hdisplays⟩ := h.read
  obtain ⟨hframes', hdisplays'⟩ :=
    Reference.frames_renderedWith options hd hroot hcontainer values
  have hfault := Template.mount_fault_eq_none (valuesContext (κ := κ) options values)
    (Template.ofContents (d.contents (d.children root))) hd hroot hcontainer
  have hlinks : SameLinks (renderedWith d options root values).document (w.document 0) :=
    ⟨hframes.1.size.trans hframes'.1.size.symm,
      fun x => (hframes.1.parent? x).trans (hframes'.1.parent? x).symm,
      fun x => (hframes.1.children x).trans (hframes'.1.children x).symm⟩
  have hwritten := Reference.written_eq hframes' hframes hdisplays' hdisplays
  have hsame := (Template.mount_same hfault).1
  have hcontent : (renderedWith d options root values).document.content root = d.content root :=
    Template.content_mount hfault hroot
  refine ⟨hr, ?_, ?_, ?_⟩
  · rw [hlinks.size, show (renderedWith d options root values).document.size = _ from hsame.size,
      Template.size_planted]
    exact Nat.lt_of_lt_of_le hroot (by omega)
  · rw [← Markup.holdsVerbatim_written, hwritten, Markup.holdsVerbatim_written, hcontent]
  · rw [hlinks.children, Document.contents_congr hlinks hwritten]
    congr 1
    exact Template.contents_mount hd hroot (Template.sound_shown _ _) hfault

/-! ## Components that are made of one source -/

/-- **What holds of every component that a run makes**, of its world, its document and its number. The
run does not fault; a component that is refused is none. -/
def WhenMade (P : World κ σ → DocumentId → ComponentId → Prop) :
    EStateM.Result Fault (World κ σ) (Except Component.Error (DocumentId × ComponentId)) → Prop
  | .ok (.ok (document, id)) w => P w document id
  | .ok (.error _) _ => True
  | .error _ _ => False

/-- **Whether a run makes a component** for which a test succeeds. -/
def makes (test : World κ σ → DocumentId → ComponentId → Bool) :
    EStateM.Result Fault (World κ σ) (Except Component.Error (DocumentId × ComponentId)) → Bool
  | .ok (.ok (document, id)) w => test w document id
  | _ => false

/-- **Neither a node nor anything under it is verbatim.** -/
def Escaped (d : Document κ) (id : NodeId) : Prop :=
  holdsVerbatim (d.content id) = false ∧ Plain (d.contents (d.children id))

/-- The verdict is about the first node that the selector matches. -/
theorem query_of_verdict {d : Document (Action Writes)} {config : Config Writes}
    {declared : String → Bool} {root : NodeId} (h : verdict d config declared = .ok root) :
    ∃ selector, Selector.parse config.el = .ok selector ∧ selector.query d = some root := by
  unfold verdict at h
  split at h
  · cases h
  · rename_i selector hselector
    split at h
    · cases h
    · rename_i found hquery
      unfold outcome at h
      cases hrefusal : refusal? d found config declared with
      | some e =>
        rw [hrefusal] at h
        cases h
      | none =>
        rw [hrefusal] at h
        cases h
        exact ⟨selector, hselector, hquery⟩

/-- **A component that is made of a source** shows the page of a root that the selector alone decides. -/
theorem Run.whenMade_incremental (source : String) (config : Config Writes) (created : Option Writes)
    (writes : Writes) (host : σ) :
    WhenMade (fun w document id => ∃ d root selector,
        (document = 0 ∧ id = 0) ∧ Document.parse source = .ok d ∧
          Selector.parse config.el = .ok selector ∧ selector.query d = some root ∧
            Shows (Reference.ofDocument d config.options root)
              (allWritten (fun key => config.data.reverse.lookup key) (created.getD [] ++ writes)) w)
      (incremental source config created writes (World.ofHost host)) := by
  have hends := incremental_endsAs source config created writes host _ rfl
  cases hrun : incremental source config created writes (World.ofHost host) with
  | error f w =>
    rw [hrun] at hends
    exact hends.elim
  | ok result w =>
    rw [hrun] at hends
    cases result with
    | error e => trivial
    | ok made =>
      obtain ⟨document, id⟩ := made
      unfold After EndsAs at hends
      cases hparse : (Document.parse source : Except Markup.Error (Document (Action Writes))) with
      | error e =>
        rw [hparse] at hends
        cases hends
      | ok d =>
        rw [hparse] at hends
        dsimp only at hends
        cases hverdict : verdict d config fun key => (config.data.reverse.lookup key).isSome with
        | error e =>
          rw [hverdict] at hends
          cases hends
        | ok root =>
          rw [hverdict] at hends
          obtain ⟨hmade, _, hshows⟩ := hends
          obtain ⟨selector, hselector, hquery⟩ := query_of_verdict hverdict
          cases hmade
          exact ⟨d, root, selector, ⟨rfl, rfl⟩, rfl, hselector, hquery, hshows⟩

theorem WhenMade.mono {P Q : World κ σ → DocumentId → ComponentId → Prop}
    {r : EStateM.Result Fault (World κ σ) (Except Component.Error (DocumentId × ComponentId))}
    (h : WhenMade P r) (himp : ∀ w document id, P w document id → Q w document id) :
    WhenMade Q r := by
  unfold WhenMade at h ⊢
  split at h
  · exact himp _ _ _ h
  · trivial
  · exact h.elim

theorem exists_of_makes {test : World κ σ → DocumentId → ComponentId → Bool}
    {r : EStateM.Result Fault (World κ σ) (Except Component.Error (DocumentId × ComponentId))}
    (h : makes test r = true) :
    ∃ w document id, r = .ok (.ok (document, id)) w ∧ test w document id = true := by
  unfold makes at h
  split at h
  · exact ⟨_, _, _, rfl, h⟩
  · cases h

section

variable {d : Document (Action κ)} {options : Options} {root : NodeId} {source : String}
  {selector : Selector} {values : String → Option Value} {w : World κ σ}

/-- Whether the markup of a component is escaped can be read off its template. -/
theorem Shows.escaped_iff (hparse : Document.parse source = .ok d)
    (hquery : selector.query d = some root)
    (h : Shows (Reference.ofDocument d options root) values w) :
    Escaped (w.document 0) (w.component 0).root ↔ holdsVerbatim (d.content root) = false ∧
      Plain ((Template.ofContents (d.contents (d.children root))).shown
        (valuesContext (κ := κ) options values)) := by
  obtain ⟨hroot, e, he⟩ := Selector.exists_element_of_query hquery
  have hcontainer : (d.content root).isContainer = true := by
    rw [he]
    rfl
  obtain ⟨hr, _, hverbatim, hcontents⟩ :=
    h.contents (Document.coherent_of_parse hparse) hroot hcontainer
  unfold Escaped
  rw [hr, hverbatim, ← Markup.plain_map_written, hcontents, Markup.plain_map_written]

/-- **The markup of a component parses again**, and has the elements of its template. -/
theorem Shows.exists_reparses (hparse : Document.parse source = .ok d)
    (hquery : selector.query d = some root)
    (h : Shows (Reference.ofDocument d options root) values w)
    (hescaped : Escaped (w.document 0) (w.component 0).root) :
    ∃ e, Reparses (w.document 0) (w.component 0).root e ∧
      skeleton (e.contents (e.children Document.root)) =
        skeleton ((Template.ofContents (d.contents (d.children root))).shown
          (valuesContext (κ := κ) options values)) := by
  obtain ⟨_, hplain⟩ := (h.escaped_iff hparse hquery).mp hescaped
  obtain ⟨hroot, e, he⟩ := Selector.exists_element_of_query hquery
  have hcontainer : (d.content root).isContainer = true := by
    rw [he]
    rfl
  obtain ⟨hr, hlt, _, hcontents⟩ :=
    h.contents (Document.coherent_of_parse hparse) hroot hcontainer
  have hwritable := Document.writable_of_parse hparse (List.mem_of_find?_eq_some hquery)
  rw [hr] at hescaped ⊢
  obtain ⟨parsed, hparsed⟩ := Document.exists_reparses hlt hescaped.1
    (Template.writable_shown hwritable hplain) hcontents
  refine ⟨parsed, hparsed, ?_⟩
  obtain ⟨_, _, _, hholds⟩ := hparsed
  rw [hholds, Markup.skeleton_joined, Markup.skeleton_pruned, hcontents, Markup.skeleton_map_written]

end

/-- **Data inject no markup.** However a component is made of a source, and whatever is written to it,
the run does not fault; and unless its root or an element under it is verbatim, the markup of its root
parses again, to what the root holds but for live values and empty texts, with texts that stand side by
side joined. Every other component that is made of the source at the same place, with any data, options
and writes, has markup that parses to the same elements. -/
theorem markup_of_data (source : String) (config config' : Config Writes) (writes writes' : Writes)
    (host : σ) :
    WhenMade (fun w document id => Escaped (w.document document) (w.component id).root →
        ∃ e, Reparses (w.document document) (w.component id).root e ∧
          WhenMade (fun w' document' id' =>
              ∃ e', Reparses (w'.document document') (w'.component id').root e' ∧
                skeleton (e'.contents (e'.children Document.root)) =
                  skeleton (e.contents (e.children Document.root)))
            (Run.incremental source { config' with el := config.el } none writes'
              (World.ofHost host)))
      (Run.incremental source config none writes (World.ofHost host)) := by
  refine (Run.whenMade_incremental source config none writes host).mono fun w document id hmade hescaped => ?_
  obtain ⟨d, root, selector, ⟨rfl, rfl⟩, hparse, hselector, hquery, hshows⟩ := hmade
  obtain ⟨hverbatim, hplain⟩ := (hshows.escaped_iff hparse hquery).mp hescaped
  obtain ⟨e, hreparses, hskeleton⟩ := hshows.exists_reparses hparse hquery hescaped
  refine ⟨e, hreparses, (Run.whenMade_incremental source { config' with el := config.el } none
    writes' host).mono fun w' document' id' hmade' => ?_⟩
  obtain ⟨d', root', selector', ⟨rfl, rfl⟩, hparse', hselector', hquery', hshows'⟩ := hmade'
  -- the place is the same: it depends on the source and the selector only
  obtain rfl : d' = d := Except.ok.inj (hparse'.symm.trans hparse)
  obtain rfl : selector' = selector := Except.ok.inj (hselector'.symm.trans hselector)
  obtain rfl : root' = root := Option.some.inj (hquery'.symm.trans hquery)
  have hescaped' : Escaped (w'.document 0) (w'.component 0).root :=
    (hshows'.escaped_iff hparse' hquery').mpr ⟨hverbatim, Template.plain_shown _ _ _ hplain⟩
  obtain ⟨e', hreparses', hskeleton'⟩ := hshows'.exists_reparses hparse' hquery' hescaped'
  refine ⟨e', hreparses', ?_⟩
  rw [hskeleton, hskeleton', Template.skeleton_shown]

/-- A page that shows a name twice. -/
def guestbook : String :=
  "<div id=app><p class=n>{{ name }}</p><textarea>{{ name }}</textarea></div>"

/-- A component on it. -/
def guest : Config Writes where
  el := "#app"
  data := [("name", .str "Bo")]
  methods := []
  created := none
  mounted := none
  options := {}

/-- The page after somebody gave tags and a reference for a name. -/
def guestbookShown : Forest Content :=
  .node (.element ⟨"p", [⟨"class", "n"⟩], none⟩) (.single (.text "</p><script>&lt;"))
    (.node (.element ⟨"textarea", [], none⟩) (.single (.text "</p><script>&lt;")) .nil)

theorem markup_of_data_guestbook :
    ∃ (w : World Writes Unit) (e : Document (Action Writes)),
      Run.incremental guestbook guest none [("name", .str "</p><script>&lt;")] (World.ofHost ()) =
          .ok (.ok (0, 0)) w ∧
        Escaped (w.document 0) (w.component 0).root ∧
          Reparses (w.document 0) (w.component 0).root e ∧
            e.contents (e.children Document.root) = guestbookShown := by
  have hdata := markup_of_data guestbook guest guest [("name", .str "</p><script>&lt;")] [] ()
  have hrun : makes (fun w document id => decide ((document = 0 ∧ id = 0) ∧
      holdsVerbatim ((w.document 0).content (w.component 0).root) = false ∧
        (w.document 0).contents ((w.document 0).children (w.component 0).root) = guestbookShown))
      (Run.incremental (σ := Unit) guestbook guest none [("name", .str "</p><script>&lt;")]
        (World.ofHost ())) = true := by decide +kernel
  obtain ⟨w, document, id, hmade, htest⟩ := exists_of_makes hrun
  obtain ⟨⟨rfl, rfl⟩, hverbatim, hcontents⟩ := of_decide_eq_true htest
  rw [hmade] at hdata
  have hescaped : Escaped (w.document 0) (w.component 0).root := by
    refine ⟨hverbatim, ?_⟩
    rw [hcontents]
    unfold Plain
    decide
  obtain ⟨e, hreparses, _⟩ := hdata hescaped
  refine ⟨w, e, hmade, hescaped, hreparses, ?_⟩
  obtain ⟨_, _, _, hholds⟩ := hreparses
  rw [hholds, hcontents]
  decide

end BoundView
