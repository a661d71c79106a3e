import BoundView.Proofs.Component.Writing
import BoundView.Proofs.Rendering.Mounting
import BoundView.Proofs.World.Declaring

/-!
# A new component has a contract

In a world without components a contract begins when a component is added: its store is declared and
its keys are watched, and nothing is displayed yet. Rendering turns it into a contract with a
template, which the document displays from then on.

Main statements: `met_made`, `Met.render`, `renderComponent_spec`.
-/

namespace BoundView

open BoundView.Dom (Document NodeId)

variable {κ σ : Type}

/-! ## Adding a component -/

/-- **What is agreed about a component** besides its parts. -/
structure Terms (κ σ : Type) (options : Options) where
  loose : Part → NodeId → Prop
  frame : Document (Action κ) → Prop
  values : (String → Option Value) → Prop
  note : σ → Prop
  failed : σ → Prop
  loose_of_syncInputs : options.syncInputs = false → ∀ p node, loose p node

namespace Contract

/-- **The contract with a component that is added** to a world. -/
def made (w : World κ σ) (document : DocumentId) (root : NodeId) (config : Config κ)
    (terms : Terms κ σ config.options) : Contract κ σ where
  id := w.components.size
  document := document
  root := root
  store := (w.makeStore config.data).1
  methods := config.methods
  options := config.options
  template := none
  loose := terms.loose
  frame := terms.frame
  values := terms.values
  note := terms.note
  failed := terms.failed
  separate := (makeStore_spec w config.data).separate
  nodup := by
    intro t h
    cases h
  loose_of_syncInputs := terms.loose_of_syncInputs
  frame_of_sameOutside := by
    intro t d e h
    cases h

/-- **A component that was added keeps its contract.** -/
theorem met_made {w : World κ σ} {document : DocumentId} {root : NodeId} {config : Config κ}
    {terms : Terms κ σ config.options} (hcomponents : w.components.size = 0)
    (hsubscribers : w.subscribers.size = 0) (hdocument : document < w.documents.size)
    (hframe : terms.frame (w.document document))
    (hvalues : terms.values fun key => config.data.reverse.lookup key) (hnote : terms.note w.host) :
    (made w document root config terms).Met .idle (w.addComponent document root config) := by
  have hdeclared := makeStore_spec w config.data
  have hwatches := World.watches_addComponent hsubscribers document root config
  generalize w.addComponent document root config = w₁ at hwatches ⊢
  obtain ⟨watchers, hcomponent⟩ := hwatches.component
  rw [World.component_withAdded, if_pos rfl] at hcomponent
  have hdocuments : w₁.documents = w.documents := hwatches.documents.trans hdeclared.documents
  have hdocument' : w₁.document document = w.document document := by
    unfold World.document
    rw [hdocuments]
  have hvalue : w₁.value? (w.makeStore config.data).1 = fun key => config.data.reverse.lookup key := by
    funext key
    rw [hwatches.value]
    exact hdeclared.value key
  refine ⟨⟨?component_lt, ?fits, ?held, ?others, ?document_lt, ?watched, ?tuned, ?awaited, ?editing,
    ?noted⟩, ?shown, ?framed, ?valued⟩
  case component_lt =>
    rw [hwatches.components, World.size_components_withAdded]
    exact Nat.lt_succ_self _
  case fits =>
    show Fits _ (w₁.component w.components.size)
    rw [hcomponent]
    exact ⟨rfl, rfl, rfl, rfl, rfl, rfl⟩
  case held =>
    show 0 < (w₁.component w.components.size).holders
    rw [hcomponent]
    exact Nat.zero_lt_one
  case others =>
    intro id hid
    have hne : id ≠ w.components.size := hid
    rw [hwatches.others id hne, World.component_withAdded, if_neg hne]
    unfold World.component
    rw [Array.getD_eq_getD_getElem?, Array.getElem?_eq_none (by omega)]
    exact ⟨rfl, rfl⟩
  case document_lt =>
    rw [hdocuments]
    exact hdocument
  case watched =>
    intro key cell hcell
    refine ⟨?_, ?_⟩
    · rw [hwatches.cells]
      exact (hdeclared.unheard key cell hcell).1
    · have hfirst := hwatches.first key cell
      rw [World.component_withAdded, if_pos rfl] at hfirst
      rcases hfirst hcell with ⟨hmissing, _⟩ | hfirst
      · exact absurd (Store.mem_keys_iff.mpr (hcell ▸ Option.some_ne_none cell)) hmissing
      · exact hfirst
  case tuned =>
    have htuned := hwatches.tuned
    rw [World.component_withAdded, if_pos rfl] at htuned
    exact htuned
  case awaited =>
    intro s key hs
    rw [hwatches.holders s (hs ▸ rfl)]
    exact Nat.zero_lt_one
  case editing =>
    intro event node hr
    cases hr
  case noted =>
    rw [hwatches.host]
    exact hdeclared.host ▸ hnote
  case shown =>
    intro t ht
    cases ht
  case framed =>
    show terms.frame (w₁.document document)
    rw [hdocument']
    exact hframe
  case valued =>
    show terms.values (w₁.value? (w.makeStore config.data).1)
    rw [hvalue]
    exact hvalues

/-! ## Rendering -/

variable {c : Contract κ σ} {g : Stage} {w : World κ σ} {t : Template}

/-- **The contract with a template**, and with another agreement about the document. -/
def withTemplate (c : Contract κ σ) (t : Template) (hnodup : t.handles.Nodup)
    (frame : Document (Action κ) → Prop)
    (hframe : ∀ d e, frame d → SameOutside t d e → frame e) : Contract κ σ :=
  { c with
    template := some t
    frame
    nodup := by
      rintro _ ⟨⟩
      exact hnodup
    frame_of_sameOutside := by
      rintro _ d e ⟨⟩
      exact hframe d e }

/-- **What rendering a component's template gives.** -/
def rendering (c : Contract κ σ) (t : Template) (w : World κ σ) : Template.Rendered (Action κ) :=
  t.mount ⟨w.lookup c.store, c.options.missingKey, Component.binder c.id⟩ (w.document c.document)
    c.root

theorem rendering_eq (h : c.Met g w) (t : Template) :
    t.mount (w.renderContext c.id) (w.document (w.component c.id).document)
      (w.component c.id).root = c.rendering t w := by
  unfold World.renderContext
  rw [h.fits.store, h.fits.options, h.fits.document, h.fits.root]
  rfl

/-- The world with a rendered document, and with the template in its place. -/
def withRendered (c : Contract κ σ) (w : World κ σ) (d : Document (Action κ)) (t : Template) :
    World κ σ :=
  (w.setDocument c.document d).modifyComponent c.id fun component =>
    { component with template := some t }

/-- **A rendered template is displayed** from now on. -/
theorem Met.render (h : c.Met g w) {t : Template} (hnodup : t.handles.Nodup)
    {frame : Document (Action κ) → Prop} (hframe : ∀ d e, frame d → SameOutside t d e → frame e)
    {d : Document (Action κ)}
    (hshown : Displays d (w.lookup c.store) c.options.missingKey (c.looseAt g) t) (hd : frame d) :
    (c.withTemplate t hnodup frame hframe).Met g (c.withRendered w d t) := by
  have hlt : c.id < (w.setDocument c.document d).components.size := h.component_lt
  have hself := World.component_modifyComponent_self hlt fun component =>
    { component with template := some t }
  have hdocument := World.document_setDocument h.document_lt d
  refine ⟨⟨?_, ?_, ?_, ?_, ?_, h.watched, h.tuned, h.awaited, h.editing, h.noted⟩, ?_, ?_, h.valued⟩
  · show c.id < (Array.modify w.components _ _).size
    rw [Array.size_modify]
    exact h.component_lt
  · show Fits _ ((c.withRendered w d t).component c.id)
    unfold withRendered
    rw [hself]
    exact { h.fits with template := rfl }
  · show g.activities < ((c.withRendered w d t).component c.id).holders
    unfold withRendered
    rw [hself]
    exact h.held
  · intro id hid
    unfold withRendered
    rw [World.component_modifyComponent_of_ne hlt hid]
    exact h.others id hid
  · show c.document < (Array.setIfInBounds w.documents _ _).size
    rw [Array.size_setIfInBounds]
    exact h.document_lt
  · rintro _ ⟨⟩
    show Displays ((w.setDocument c.document d).document c.document) _ _ _ t
    rw [hdocument]
    exact hshown
  · show frame ((w.setDocument c.document d).document c.document)
    rw [hdocument]
    exact hd

end Contract

namespace Run

open Contract

variable {c : Contract κ σ} {g : Stage} {t : Template}

/-- **Rendering a component's template** gives what mounting gives: either it faults, or the document
and the template are replaced. -/
theorem renderComponent_spec {Q : World κ σ → Prop}
    (hfault : ∀ w, c.Met g w → (c.rendering t w).fault ≠ none → c.Fallen w)
    (hdone : ∀ w, c.Met g w → (c.rendering t w).fault = none →
      Q (c.withRendered w (c.rendering t w).document (c.rendering t w).template))
    (htell : ∀ w traces, Q w → Q (w.tell traces)) :
    Triple (c.Met g) (renderComponent c.id t) (fun _ => Q) c.Fallen := by
  unfold renderComponent
  refine Triple.bind (Q := fun _ => c.Met g) (Triple.modify fun _ h => h.tell _) fun _ => ?_
  refine Triple.get_bind fun w hw => ?_
  dsimp only
  rw [rendering_eq hw, hw.fits.document]
  refine Triple.bind (Q := fun _ w' => w' = w.setDocument c.document (c.rendering t w).document)
    (Triple.modify fun _ he => by rw [he]) fun _ => ?_
  refine Triple.bind (Q := fun _ w' => w' = c.withRendered w (c.rendering t w).document
    (c.rendering t w).template) (Triple.modify fun _ he => by rw [he]; rfl) fun _ => ?_
  refine Triple.bind (Q := fun _ w' => w' = (c.withRendered w (c.rendering t w).document
    (c.rendering t w).template).tell (c.rendering t w).traces)
    (Triple.modify fun _ he => by rw [he]) fun _ => ?_
  cases hresult : (c.rendering t w).fault with
  | none =>
    refine Triple.pure fun w' he => ?_
    rw [he]
    exact htell _ _ (hdone w hw hresult)
  | some f =>
    refine Triple.throw fun w' he => ?_
    have hfallen : c.Fallen w := hfault w hw (by rw [hresult]; exact Option.some_ne_none f)
    rw [he]
    exact hfallen

end Run

end BoundView
