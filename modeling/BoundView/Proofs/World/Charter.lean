import BoundView.Proofs.World.Adding
import BoundView.Proofs.World.Durable

/-!
# The charter of a component

What a component is made from never changes afterwards: its place in a document, the keys and the cells
of its store, its methods, its options, and its template once it is rendered. This is its **charter**.
Only the counts of its scans and holders and the list of its watchers change.

A world **honors** the charters of some components when they have them still, while all documents of the
world are coherent and those of the components have only grown. Each edit of a world that a computation
makes keeps this up, with one law for each edit. Others may be made, rendered and let go meanwhile.

Main statements: the laws of `World.Honors`, `World.durable_honors`.
-/

namespace BoundView

open BoundView.Dom (Document NodeId)
open BoundView.Dom.Document (Grows)

variable {κ σ : Type}

/-- **What is claimed of a component**: its charter, and a document that its own has grown from. -/
structure Claim (κ : Type) where
  id : ComponentId
  charter : Component κ
  origin : Document (Action κ)

namespace World

/-- **A world that meets a claim.** -/
structure Meets (w : World κ σ) (c : Claim κ) : Prop where
  there : c.id < w.components.size
  same : (w.component c.id).charter = c.charter
  document_lt : c.charter.document < w.documents.size
  grown : Grows c.origin (w.document c.charter.document)

namespace Meets

variable {c : Claim κ} {w : World κ σ}

/-! ## Reading a charter -/

theorem store (h : w.Meets c) : (w.component c.id).store = c.charter.store := by
  rw [← h.same]
  rfl

theorem methods (h : w.Meets c) : (w.component c.id).methods = c.charter.methods := by
  rw [← h.same]
  rfl

theorem options (h : w.Meets c) : (w.component c.id).options = c.charter.options := by
  rw [← h.same]
  rfl

theorem document (h : w.Meets c) : (w.component c.id).document = c.charter.document := by
  rw [← h.same]
  rfl

theorem root (h : w.Meets c) : (w.component c.id).root = c.charter.root := by
  rw [← h.same]
  rfl

theorem template (h : w.Meets c) : (w.component c.id).template = c.charter.template := by
  rw [← h.same]
  rfl

/-! ## One claim -/

/-- Cells and subscribers are not spoken of. -/
theorem withCells (h : w.Meets c) (cells : Array Cell) : ({ w with cells } : World κ σ).Meets c :=
  { h with }

theorem withSubscribers (h : w.Meets c) (subscribers : Array (Subscriber κ)) :
    ({ w with subscribers } : World κ σ).Meets c := { h with }

/-- There may be more documents, and they may grow. -/
theorem withDocuments (h : w.Meets c) {documents : Array (Document (Action κ))}
    (hsize : w.documents.size ≤ documents.size)
    (hgrows : ∀ id, id < w.documents.size →
      Grows (w.document id) (({ w with documents } : World κ σ).document id)) :
    ({ w with documents } : World κ σ).Meets c :=
  { h with
    document_lt := Nat.lt_of_lt_of_le h.document_lt hsize
    grown := h.grown.trans (hgrows _ h.document_lt) }

/-- There may be more components, and the counts and the watchers of this one may change. -/
theorem withComponents (h : w.Meets c) {components : Array (Component κ)}
    (hsize : w.components.size ≤ components.size)
    (hsame : (({ w with components } : World κ σ).component c.id).charter =
      (w.component c.id).charter) :
    ({ w with components } : World κ σ).Meets c :=
  { h with there := Nat.lt_of_lt_of_le h.there hsize, same := hsame.trans h.same }

/-- The counts and the watchers of any component may change. -/
theorem modifyComponent (h : w.Meets c) (id : ComponentId) {f : Component κ → Component κ}
    (hf : ∀ c, (f c).charter = c.charter) : (w.modifyComponent id f).Meets c := by
  refine h.withComponents (Nat.le_of_eq Array.size_modify.symm) ?_
  show ((w.modifyComponent id f).component c.id).charter = _
  by_cases hid : c.id = id
  · rw [← hid, component_modifyComponent_self h.there, hf]
  · rcases Nat.lt_or_ge id w.components.size with hlt | hge
    · rw [component_modifyComponent_of_ne hlt hid]
    · rw [modifyComponent_of_size_le hge]

/-- Everything about another component may change. -/
theorem modifyOther (h : w.Meets c) {id : ComponentId} (hid : c.id ≠ id)
    (f : Component κ → Component κ) : (w.modifyComponent id f).Meets c := by
  refine h.withComponents (Nat.le_of_eq Array.size_modify.symm) ?_
  show ((w.modifyComponent id f).component c.id).charter = _
  rcases Nat.lt_or_ge id w.components.size with hlt | hge
  · rw [component_modifyComponent_of_ne hlt hid]
  · rw [modifyComponent_of_size_le hge]

end Meets

/-- **A world that honors claims.** -/
structure Honors (note : σ → Prop) (claims : List (Claim κ)) (w : World κ σ) : Prop where
  noted : note w.host
  coherent : ∀ id, (w.document id).Coherent
  met : ∀ c ∈ claims, w.Meets c

namespace Honors

variable {note : σ → Prop} {claims : List (Claim κ)} {w : World κ σ}

/-! ## Edits that a charter does not read -/

theorem withTraces (h : w.Honors note claims) (traces : Array Trace) :
    ({ w with traces } : World κ σ).Honors note claims :=
  { h with met := fun c hc => { h.met c hc with } }

theorem tell (h : w.Honors note claims) (traces : List Trace) : (w.tell traces).Honors note claims :=
  h.withTraces _

theorem addEvent (h : w.Honors note claims) (e : Event) : (w.addEvent e).Honors note claims :=
  { h with met := fun c hc => { h.met c hc with } }

theorem modifyEvent (h : w.Honors note claims) (event : EventId) (f : Event → Event) :
    (w.modifyEvent event f).Honors note claims :=
  { h with met := fun c hc => { h.met c hc with } }

theorem modifyHost {note' : σ → Prop} (h : w.Honors note claims) (f : σ → σ)
    (hf : note w.host → note' (f w.host)) : (w.modifyHost f).Honors note' claims :=
  { h with noted := hf h.noted, met := fun c hc => { h.met c hc with } }

theorem withCells (h : w.Honors note claims) (cells : Array Cell) :
    ({ w with cells } : World κ σ).Honors note claims :=
  { h with met := fun c hc => (h.met c hc).withCells cells }

theorem withSubscribers (h : w.Honors note claims) (subscribers : Array (Subscriber κ)) :
    ({ w with subscribers } : World κ σ).Honors note claims :=
  { h with met := fun c hc => (h.met c hc).withSubscribers subscribers }

/-! ## Documents -/

theorem pushDocument (h : w.Honors note claims) {e : Document (Action κ)} (he : e.Coherent) :
    ({ w with documents := w.documents.push e } : World κ σ).Honors note claims := by
  have hread : ∀ id, ({ w with documents := w.documents.push e } : World κ σ).document id =
      if id = w.documents.size then e else w.document id := by
    intro id
    unfold World.document
    dsimp only
    rw [Array.getD_eq_getD_getElem?, Array.getElem?_push, Array.getD_eq_getD_getElem?]
    split <;> rfl
  refine { h with coherent := fun id => ?_, met := fun c hc => (h.met c hc).withDocuments ?_ ?_ }
  · rw [hread]
    split
    · exact he
    · exact h.coherent id
  · rw [Array.size_push]
    exact Nat.le_succ _
  · intro id hid
    rw [hread, if_neg (Nat.ne_of_lt hid)]
    exact .refl _

/-- An edit under which a document grows and stays coherent. -/
theorem setDocument (h : w.Honors note claims) {id : DocumentId} {e : Document (Action κ)}
    (hgrows : Grows (w.document id) e) (hcoherent : (w.document id).Coherent → e.Coherent) :
    (w.setDocument id e).Honors note claims := by
  have hsize : (w.setDocument id e).documents.size = w.documents.size := Array.size_setIfInBounds
  refine { h with
    coherent := fun other => ?_
    met := fun c hc => (h.met c hc).withDocuments (Nat.le_of_eq hsize.symm) ?_ }
  · by_cases hother : other = id
    · subst hother
      rcases Nat.lt_or_ge other w.documents.size with hlt | hge
      · rw [document_setDocument hlt]
        exact hcoherent (h.coherent other)
      · have hnone : (w.setDocument other e).document other = .empty := by
          unfold World.document
          rw [Array.getD_eq_getD_getElem?, Array.getElem?_eq_none (by rwa [hsize])]
          rfl
        rw [hnone]
        exact Document.coherent_empty
    · rw [document_setDocument_of_ne hother]
      exact h.coherent other
  · intro other hlt
    show Grows _ ((w.setDocument id e).document other)
    by_cases hother : other = id
    · subst hother
      rw [document_setDocument hlt]
      exact hgrows
    · rw [document_setDocument_of_ne hother]
      exact .refl _

/-! ## Components -/

theorem modifyComponent (h : w.Honors note claims) (id : ComponentId)
    {f : Component κ → Component κ} (hf : ∀ c, (f c).charter = c.charter) :
    (w.modifyComponent id f).Honors note claims :=
  { h with met := fun c hc => (h.met c hc).modifyComponent id hf }

theorem modifyOther (h : w.Honors note claims) {id : ComponentId} (hid : ∀ c ∈ claims, c.id ≠ id)
    (f : Component κ → Component κ) : (w.modifyComponent id f).Honors note claims :=
  { h with met := fun c hc => (h.met c hc).modifyOther (hid c hc) f }

theorem pushComponent (h : w.Honors note claims) (c : Component κ) :
    ({ w with components := w.components.push c } : World κ σ).Honors note claims := by
  refine { h with met := fun claim hclaim => (h.met claim hclaim).withComponents ?_ ?_ }
  · rw [Array.size_push]
    exact Nat.le_succ _
  · rw [component_push, if_neg (Nat.ne_of_lt (h.met claim hclaim).there)]

end Honors

/-! ## Charters are durable -/

/-- **To honor charters is durable**, as long as none of these components is rendered once more, and
nothing improper. -/
theorem durable_honors (note : σ → Prop) (claims : List (Claim κ)) :
    Durable (Honors note claims) ⟨fun _ => True, fun id => ∀ c ∈ claims, c.id ≠ id, True⟩ where
  withTraces traces h := h.withTraces traces
  withCells cells h := h.withCells cells
  withSubscribers subscribers h := h.withSubscribers subscribers
  addEvent e h := ⟨h.addEvent e, trivial⟩
  stop event h := h.modifyEvent event _
  pass _ _ h := h.modifyEvent _ _
  pushDocument hd h := h.pushDocument hd
  setDocument h hgrows hcoherent := h.setDocument hgrows (hcoherent trivial)
  pushComponent c h := ⟨h.pushComponent c, fun claim hclaim => Nat.ne_of_lt (h.met claim hclaim).there⟩
  modifyComponent id _ hf h := h.modifyComponent id hf
  render f hid h := h.modifyOther hid f

namespace Honors

variable {note : σ → Prop} {claims : List (Claim κ)} {w : World κ σ}

/-- **Adding a component**: the new one is as it was asked for. -/
theorem addComponent (h : w.Honors note claims) {document : DocumentId}
    (hdocument : document < w.documents.size) (root : NodeId) (config : Config κ) :
    (w.addComponent document root config).Honors note
      (⟨w.components.size, (w.added document root config).charter, w.document document⟩ :: claims) := by
  have hold : (w.withAdded document root config).Honors note claims :=
    ((durable_honors note claims).makeStore h config.data).pushComponent _
  obtain ⟨hdocuments, _⟩ := makeStore_spec w config.data
  have hnew : (w.withAdded document root config).Meets
      ⟨w.components.size, (w.added document root config).charter, w.document document⟩ := by
    refine ⟨?_, ?_, ?_, ?_⟩
    · rw [size_components_withAdded]
      exact Nat.lt_succ_self _
    · rw [component_withAdded, if_pos rfl]
    · show document < (w.makeStore config.data).2.documents.size
      rw [hdocuments]
      exact hdocument
    · show Grows _ ((w.makeStore config.data).2.documents.getD document .empty)
      rw [hdocuments]
      exact .refl _
  have hboth : (w.withAdded document root config).Honors note
      (⟨w.components.size, (w.added document root config).charter, w.document document⟩ ::
        claims) := { hold with met := List.forall_mem_cons.mpr ⟨hnew, hold.met⟩ }
  exact (durable_honors note _).watchAll hboth _ _

end Honors

end World

end BoundView
