import BoundView.Proofs.Component.Making
import BoundView.Proofs.Tree.Alike

/-!
# A component shows a page

Whatever the values of its keys are, a component renders the same template into the same place of the
same document. Rendering and patching change nothing in the document but what the rendered nodes hold,
and what those hold is a function of the values. So all documents of the component can be compared with
one **page**: what rendering gives when no key is declared.

A component shows the page with some values when its document differs from the page in rendered nodes
only and displays the template under the values. Two components that show one page with the same values
look alike.

Main statements: `allWritten_apply`, `writeAll_shows`, `renderComponent_shows`, `lookAlike_of_shows`.
-/

namespace BoundView

open BoundView.Dom (Document NodeId)
open BoundView.Dom.Document (SameLinks)

/-- Keys with the values that are written to them, in order. -/
abbrev Writes := List (String × Value)

variable {κ σ : Type}

/-! ## Writes -/

namespace Run

/-- A world without handlers. -/
def quiet : Handle κ σ := fun _ _ => pure ()

/-- Writes keys of a component in order; writes to keys that are not declared are refused. -/
def writeAll (id : ComponentId) : Writes → Run κ σ Unit
  | [] => pure ()
  | (key, value) :: rest => do
    discard (write quiet id key value)
    writeAll id rest

end Run

/-- The values after writes in order. -/
def allWritten (values : String → Option Value) (writes : Writes) : String → Option Value :=
  writes.foldl (fun values (key, value) => overwritten values key value) values

theorem allWritten_append (values : String → Option Value) (before after : Writes) :
    allWritten values (before ++ after) = allWritten (allWritten values before) after :=
  List.foldl_append

/-- **The last write counts**, where the key is declared. -/
theorem allWritten_apply (values : String → Option Value) (writes : Writes) (key : String) :
    allWritten values writes key =
      (values key).map fun value => (writes.reverse.lookup key).getD value := by
  induction writes using List.reverseRecOn with
  | nil =>
    show values key = _
    cases values key <;> rfl
  | append_singleton writes entry ih =>
    obtain ⟨k, value⟩ := entry
    rw [allWritten_append, List.reverse_append]
    show overwritten (allWritten values writes) k value key =
      (values key).map fun value' => (List.lookup key ((k, value) :: writes.reverse)).getD value'
    rw [lookup_cons_eq_ite]
    unfold overwritten
    rw [ih]
    by_cases hk : key = k
    · rw [if_pos hk, if_pos hk, Option.map_map]
      rfl
    · rw [if_neg hk, if_neg hk]

theorem isSome_allWritten (values : String → Option Value) (writes : Writes) (key : String) :
    (allWritten values writes key).isSome = (values key).isSome := by
  rw [allWritten_apply, Option.isSome_map]

/-! ## One page for all runs -/

/-- **What rendering gives** for a document and a root, with the same things in every run. -/
structure Reference (κ : Type) where
  root : NodeId
  options : Options
  template : Template
  page : Document (Action κ)

namespace Reference

/-- The page of a component when no key is declared. -/
def ofDocument (d : Document (Action κ)) (options : Options) (root : NodeId) : Reference κ :=
  let mounted := (Template.ofContents (d.contents (d.children root))).mount
    ⟨fun _ => none, options.missingKey, Component.binder 0⟩ d root
  ⟨root, options, mounted.template, mounted.document⟩

/-- A document that differs from the page in what rendered nodes hold, and in nothing else. -/
def Frames (r : Reference κ) (d : Document (Action κ)) : Prop :=
  SameLinks r.page d ∧ ∀ x, x ∉ r.template.handles → d.content x = r.page.content x

theorem frames_of_sameOutside {r : Reference κ} {d e : Document (Action κ)} (h : r.Frames d)
    (hsame : SameOutside r.template d e) : r.Frames e :=
  ⟨h.1.trans hsame.links, fun x hx => (hsame.content x hx).trans (h.2 x hx)⟩

end Reference

/-- **A contract with a rendered page.** -/
structure Contract.Follows (c : Contract κ σ) (r : Reference κ) : Prop where
  id : c.id = 0
  document : c.document = 0
  root : c.root = r.root
  options : c.options = r.options
  template : c.template = some r.template
  frame : c.frame = r.Frames
  loose : c.loose = fun _ _ => r.options.syncInputs = false
  failed : c.failed = fun _ => False

/-- **The component shows the page** with these values. -/
def Shows (r : Reference κ) (values : String → Option Value) (w : World κ σ) : Prop :=
  ∃ c : Contract κ σ, c.Follows r ∧ (c.withValues (· = values)).Met .idle w

namespace Run

variable {c : Contract κ σ} {g : Stage}

/-- Under a contract that nothing meets after a fault, no fault is left. -/
theorem Triple.faultless {α : Type} {P : World κ σ → Prop} {m : Run κ σ α}
    {Q : α → World κ σ → Prop} (h : Triple P m Q c.Fallen) (hfailed : c.failed = fun _ => False) :
    Triple P m Q fun _ => False := by
  refine h.weaken (fun _ hw => hw) (fun _ _ hw => hw) fun w hw => ?_
  unfold Contract.Fallen at hw
  rw [hfailed] at hw
  exact hw

theorem quiet_keeps (c : Contract κ σ) : c.Keeps quiet :=
  fun _ _ _ => Triple.pure fun _ h => h

/-- **Writes in order** end with their values. -/
theorem writeAll_spec (c : Contract κ σ) (g : Stage) (values : String → Option Value)
    (writes : Writes) :
    Triple ((c.withValues (· = values)).Met g) (writeAll c.id writes)
      (fun _ => (c.withValues (· = allWritten values writes)).Met g) c.Fallen := by
  induction writes generalizing values with
  | nil => exact Triple.pure fun _ h => h
  | cons entry rest ih =>
    obtain ⟨key, value⟩ := entry
    have hwrite : Triple ((c.withValues (· = values)).Met g) (write quiet c.id key value)
        (fun _ => (c.withValues (· = overwritten values key value)).Met g) c.Fallen :=
      write_keeps (c := c.withValues (· = values)) (quiet_keeps _) fun f hf =>
        congrArg (overwritten · key value) hf
    exact Triple.bind (Triple.discard hwrite fun _ _ h => h) fun _ => ih _

theorem writeAll_shows (r : Reference κ) (values : String → Option Value) (writes : Writes) :
    Triple (Shows (σ := σ) r values) (writeAll 0 writes)
      (fun _ => Shows r (allWritten values writes)) fun _ => False := by
  rintro w ⟨c, hc, hw⟩
  have hwrites := (writeAll_spec c .idle values writes).faultless hc.failed
  rw [hc.id] at hwrites
  exact (hwrites w hw).weaken (fun _ _ hw' => ⟨c, hc, hw'⟩) fun _ h => h

end Run

/-! ## Rendering the page -/

/-- **A contract before the first rendering**: the document is as it was parsed. -/
structure Contract.Awaits (c : Contract κ σ) (d : Document (Action κ)) : Prop where
  id : c.id = 0
  document : c.document = 0
  frame : c.frame = (· = d)
  loose : c.loose = fun _ _ => c.options.syncInputs = false
  failed : c.failed = fun _ => False
  coherent : d.Coherent
  root_lt : c.root < d.size
  container : (d.content c.root).isContainer = true

namespace Run

variable {c : Contract κ σ} {d : Document (Action κ)}

/-- A rendered document that frames the page shows it. -/
theorem shows_rendered (hc : c.Awaits d) {values : String → Option Value} {w : World κ σ}
    (hw : (c.withValues (· = values)).Met .idle w) {r : Reference κ} {page : Document (Action κ)}
    (hroot : c.root = r.root) (hoptions : c.options = r.options)
    (hnodup : r.template.handles.Nodup) (hframes : r.Frames page)
    (hdisplays : Displays page (w.lookup c.store) c.options.missingKey (fun _ _ => False)
      r.template) :
    Shows r values ((c.withValues (· = values)).withRendered w page r.template) := by
  have hframe : ∀ e e', r.Frames e → SameOutside r.template e e' → r.Frames e' :=
    fun _ _ h hsame => Reference.frames_of_sameOutside h hsame
  refine ⟨c.withTemplate r.template hnodup r.Frames hframe, ?_, ?_⟩
  · have hloose := hc.loose
    rw [hoptions] at hloose
    exact ⟨hc.id, hc.document, hroot, hoptions, rfl, rfl, hloose, hc.failed⟩
  · refine hw.render hnodup hframe ?_ hframes
    intro p hp node hnode
    exact (hdisplays p hp node hnode).mono False.elim

/-- **Rendering does not fault, and shows the page** with the present values. -/
theorem renderComponent_shows (hc : c.Awaits d) (values : String → Option Value) :
    Triple ((c.withValues (· = values)).Met .idle)
      (renderComponent 0 (Template.ofContents (d.contents (d.children c.root))))
      (fun _ => Shows (Reference.ofDocument d c.options c.root) values) fun _ => False := by
  have hbare := Template.bare_ofContents (d.contents (d.children c.root))
  generalize ht : Template.ofContents (d.contents (d.children c.root)) = t at hbare ⊢
  have href := t.mount_fault_eq_none ⟨fun _ => none, c.options.missingKey, Component.binder 0⟩
    hc.coherent hc.root_lt hc.container
  have hreference : Reference.ofDocument d c.options c.root =
      ⟨c.root, c.options,
        (t.mount ⟨fun _ => none, c.options.missingKey, Component.binder 0⟩ d c.root).template,
        (t.mount ⟨fun _ => none, c.options.missingKey, Component.binder 0⟩ d c.root).document⟩ := by
    rw [← ht]
    rfl
  have hrendering : ∀ w, (c.withValues (· = values)).Met .idle w →
      (c.withValues (· = values)).rendering t w =
        t.mount ⟨w.lookup c.store, c.options.missingKey, Component.binder 0⟩ d c.root := by
    intro w hw
    have hframed : c.frame (w.document c.document) := hw.framed
    rw [hc.frame] at hframed
    show t.mount ⟨w.lookup c.store, c.options.missingKey, Component.binder c.id⟩
      (w.document c.document) c.root = _
    rw [hframed, hc.id]
  have hfaultless : ∀ w : World κ σ,
      (t.mount ⟨w.lookup c.store, c.options.missingKey, Component.binder 0⟩ d c.root).fault = none :=
    fun w => t.mount_fault_eq_none _ hc.coherent hc.root_lt hc.container
  have hspec : Triple ((c.withValues (· = values)).Met .idle) (renderComponent c.id t)
      (fun _ => Shows (Reference.ofDocument d c.options c.root) values) c.Fallen := by
    refine renderComponent_spec (c := c.withValues (· = values)) (fun w hw hfault => ?_)
      (fun w hw _ => ?_) fun w traces h => ?_
    · rw [hrendering w hw] at hfault
      exact absurd (hfaultless w) hfault
    · have hdisplays := (Template.mount_displays hbare (hfaultless w)).1
      obtain ⟨hlinks, htemplate, hothers⟩ :=
        Template.mount_congr hbare hc.coherent hc.root_lt href (hfaultless w)
      have hnodup := Template.nodup_handles_place hbare (d.size + 1)
      rw [← (Template.mount_steps href).1] at hnodup
      rw [hrendering w hw, hreference, htemplate]
      rw [htemplate] at hdisplays
      exact shows_rendered hc hw rfl rfl hnodup ⟨hlinks, hothers⟩ hdisplays
    · obtain ⟨c', hc', hw'⟩ := h
      exact ⟨c', hc', hw'.tell traces⟩
  rw [hc.id] at hspec
  exact hspec.faultless hc.failed

end Run

/-! ## Two components that show one page -/

/-- **Two worlds in which a component looks alike**: it has the same root and the same handles, its
root has the same markup, and where bound inputs follow writes every node has the same live value. -/
structure LookAlike (syncInputs : Bool) (document : DocumentId) (id : ComponentId)
    (w w' : World κ σ) : Prop where
  root : (w'.component id).root = (w.component id).root
  template : (w'.component id).template = (w.component id).template
  markup : ∃ html, (w.document document).innerHtml (w.component id).root = .ok html ∧
    (w'.document document).innerHtml (w'.component id).root = .ok html
  value : syncInputs = true → ∀ node,
    (w'.document document).value node = (w.document document).value node

/-- What a component shows, read off the world. -/
theorem Shows.read {r : Reference κ} {values : String → Option Value} {w : World κ σ}
    (h : Shows r values w) : (w.component 0).root = r.root ∧
      (w.component 0).template = some r.template ∧ r.Frames (w.document 0) ∧
        Displays (w.document 0) (fun key => (values key).map Value.text) r.options.missingKey
          (fun _ _ => r.options.syncInputs = false) r.template := by
  obtain ⟨c, hc, hw⟩ := h
  have hfits : (c.withValues (· = values)).Fits (w.component c.id) := hw.fits
  have hframed : c.frame (w.document c.document) := hw.framed
  have hshown : Displays (w.document c.document) (w.lookup c.store) c.options.missingKey
    (c.looseAt .idle) r.template := hw.shown r.template hc.template
  have hvalues : w.value? c.store = values := hw.valued
  have hlookup : w.lookup c.store = fun key => (values key).map Value.text := by
    funext key
    unfold World.lookup
    rw [hvalues]
  rw [hc.id] at hfits
  rw [hc.document] at hframed hshown
  rw [hc.frame] at hframed
  rw [hlookup, hc.options] at hshown
  refine ⟨hfits.root.trans hc.root, hfits.template.trans hc.template, hframed, ?_⟩
  intro p hp node hnode
  refine (hshown p hp node hnode).mono ?_
  rintro (hloose | ⟨event, hr⟩)
  · rw [hc.loose] at hloose
    exact hloose
  · cases hr

/-- Two documents that frame one page and display it under the same lookup are written alike. -/
theorem Reference.written_eq {r : Reference κ} {d e : Document (Action κ)} (hd : r.Frames d)
    (he : r.Frames e) {lookup : Interpolation.Lookup} {missing : Interpolation.MissingKey}
    {loose loose' : Part → NodeId → Prop} (hdisplays : Displays d lookup missing loose r.template)
    (hdisplays' : Displays e lookup missing loose' r.template) (x : NodeId) :
    Markup.written (e.content x) = Markup.written (d.content x) := by
  by_cases hx : x ∈ r.template.handles
  · obtain ⟨p, hp, hnode⟩ := Template.mem_handles.mp hx
    exact (hdisplays' p hp x hnode).kept.trans (hdisplays p hp x hnode).kept.symm
  · rw [he.2 x hx, hd.2 x hx]

/-- **A page with given values looks one way only.** -/
theorem lookAlike_of_shows {r : Reference κ} {values : String → Option Value} {w w' : World κ σ}
    (hroot : r.root < r.page.size) (h : Shows r values w) (h' : Shows r values w') :
    LookAlike r.options.syncInputs 0 0 w w' := by
  obtain ⟨hr, ht, hframes, hdisplays⟩ := h.read
  obtain ⟨hr', ht', hframes', hdisplays'⟩ := h'.read
  have hwritten := Reference.written_eq hframes hframes' hdisplays hdisplays'
  obtain ⟨hlinks, hothers⟩ := hframes
  obtain ⟨hlinks', hothers'⟩ := hframes'
  have hsame : SameLinks (w.document 0) (w'.document 0) :=
    ⟨hlinks'.size.trans hlinks.size.symm, fun x => (hlinks'.parent? x).trans (hlinks.parent? x).symm,
      fun x => (hlinks'.children x).trans (hlinks.children x).symm⟩
  have hmarkup := Document.innerHtml_congr hsame hwritten r.root
  refine ⟨hr'.trans hr.symm, ht'.trans ht.symm, ?_, ?_⟩
  · have hlt : r.root < (w.document 0).size := hlinks.size.symm ▸ hroot
    obtain ⟨n, hn⟩ := (w.document 0).exists_node hlt
    rw [hr, hr', hmarkup]
    unfold Document.innerHtml
    rw [((w.document 0).node_eq_ok_iff).mpr hn]
    exact ⟨_, rfl, rfl⟩
  · intro hsync node
    have hfirm : ¬ r.options.syncInputs = false := by
      rw [hsync]
      exact Bool.noConfusion
    refine Document.value_congr hsame ?_
    -- a node is either of a part, and derived from the values, or it is as in the page
    by_cases hnode : node ∈ r.template.handles
    · obtain ⟨p, hp, hof⟩ := Template.mem_handles.mp hnode
      exact ((hdisplays' p hp node hof).exact hfirm).trans ((hdisplays p hp node hof).exact hfirm).symm
    · exact (hothers' node hnode).trans (hothers node hnode).symm

end BoundView
