import BoundView.World.Basic

/-!
# What computations on a world do

A **triple** says of a computation what holds of the world after it, when something held of the world
before: one condition for the answer that it returns, another for the world that a fault leaves
behind. There is a rule for each way in which computations are put together, so that a statement about
a computation is proved along its text. A computation **keeps** a property when the property holds after
it, however it ends, if it held before.
-/

namespace BoundView.Run

variable {κ σ α β : Type}

/-- What holds of an outcome. -/
def After (Q : α → World κ σ → Prop) (E : World κ σ → Prop) :
    EStateM.Result Fault (World κ σ) α → Prop
  | .ok a w => Q a w
  | .error _ w => E w

/-- **A triple**: from a world with `P` the computation returns with `Q`, or a fault leaves `E`. -/
def Triple (P : World κ σ → Prop) (m : Run κ σ α) (Q : α → World κ σ → Prop)
    (E : World κ σ → Prop) : Prop := ∀ w, P w → After Q E (m w)

variable {P P' : World κ σ → Prop} {Q Q' : α → World κ σ → Prop} {E E' : World κ σ → Prop}

theorem After.weaken {r : EStateM.Result Fault (World κ σ) α} (h : After Q E r)
    (hQ : ∀ a w, Q a w → Q' a w) (hE : ∀ w, E w → E' w) : After Q' E' r := by
  cases r with
  | ok a w => exact hQ a w h
  | error f w => exact hE w h

namespace Triple

theorem weaken {m : Run κ σ α} (h : Triple P m Q E) (hP : ∀ w, P' w → P w)
    (hQ : ∀ a w, Q a w → Q' a w) (hE : ∀ w, E w → E' w) : Triple P' m Q' E' :=
  fun w hw => (h w (hP w hw)).weaken hQ hE

theorem pre {m : Run κ σ α} (h : Triple P m Q E) (hP : ∀ w, P' w → P w) : Triple P' m Q E :=
  fun w hw => h w (hP w hw)

/-- Two triples of one computation hold together. -/
theorem and {m : Run κ σ α} (h : Triple P m Q E) (h' : Triple P' m Q' E') :
    Triple (fun w => P w ∧ P' w) m (fun a w => Q a w ∧ Q' a w) fun w => E w ∧ E' w := by
  intro w hw
  have hleft := h w hw.1
  have hright := h' w hw.2
  cases hr : m w with
  | ok a w' =>
    rw [hr] at hleft hright
    exact ⟨hleft, hright⟩
  | error f w' =>
    rw [hr] at hleft hright
    exact ⟨hleft, hright⟩

/-- What is known of every world with `P` may be assumed. -/
theorem assuming {φ : Prop} {m : Run κ σ α} (hφ : ∀ w, P w → φ) (h : φ → Triple P m Q E) :
    Triple P m Q E :=
  fun w hw => h (hφ w hw) w hw

theorem pure {a : α} (h : ∀ w, P w → Q a w) : Triple P (Pure.pure a) Q E := h

theorem bind {m : Run κ σ α} {f : α → Run κ σ β} {R : β → World κ σ → Prop}
    (hm : Triple P m Q E) (hf : ∀ a, Triple (Q a) (f a) R E) : Triple P (m >>= f) R E := by
  intro w hw
  have h := hm w hw
  show After R E (EStateM.bind m f w)
  unfold EStateM.bind
  cases hr : m w with
  | ok a w' =>
    rw [hr] at h
    exact hf a w' h
  | error e w' =>
    rw [hr] at h
    exact h

theorem map {m : Run κ σ α} {f : α → β} {R : β → World κ σ → Prop} (hm : Triple P m Q E)
    (hf : ∀ a w, Q a w → R (f a) w) : Triple P (f <$> m) R E := by
  intro w hw
  have h := hm w hw
  show After R E (EStateM.map f m w)
  unfold EStateM.map
  cases hr : m w with
  | ok a w' =>
    rw [hr] at h
    exact hf a w' h
  | error e w' =>
    rw [hr] at h
    exact h

theorem discard {m : Run κ σ α} {R : Unit → World κ σ → Prop} (hm : Triple P m Q E)
    (h : ∀ a w, Q a w → R () w) : Triple P (Functor.discard m) R E :=
  hm.map h

/-- Reading the world: the rest runs from a world that is known. -/
theorem get_bind {f : World κ σ → Run κ σ β} {R : β → World κ σ → Prop}
    (h : ∀ w, P w → Triple (· = w) (f w) R E) :
    Triple P ((MonadState.get : Run κ σ (World κ σ)) >>= f) R E :=
  fun w hw => h w hw w rfl

/-- From a known world. -/
theorem at_world {m : Run κ σ α} {w : World κ σ} (h : Triple P m Q E) (hw : P w) :
    Triple (· = w) m Q E :=
  h.pre fun _ he => he ▸ hw

theorem modify {f : World κ σ → World κ σ} {Q : Unit → World κ σ → Prop}
    (h : ∀ w, P w → Q () (f w)) : Triple P (modify f : Run κ σ Unit) Q E := h

theorem throw {f : Fault} (h : ∀ w, P w → E w) :
    Triple P (MonadExcept.throw f : Run κ σ α) Q E := h

theorem tryCatch {F : World κ σ → Prop} {m : Run κ σ α} {handler : Fault → Run κ σ α}
    (hm : Triple P m Q F) (hhandler : ∀ f, Triple F (handler f) Q E) :
    Triple P (MonadExcept.tryCatch m handler) Q E := by
  intro w hw
  have h := hm w hw
  show After Q E (EStateM.tryCatch m handler w)
  unfold EStateM.tryCatch
  cases hr : m w with
  | ok a w' =>
    rw [hr] at h
    exact h
  | error e w' =>
    rw [hr] at h
    exact hhandler e w' h

/-- **An activity on behalf of a component** does what its body does between holding the component and
letting go of it. -/
theorem holding {id : ComponentId} {body : Run κ σ α} {I F : World κ σ → Prop}
    {R : α → World κ σ → Prop} (hhold : ∀ w, P w → I (w.holdComponent id)) (hbody : Triple I body R F)
    (hrelease : ∀ a w, R a w → Q a (w.releaseComponent id))
    (hfault : ∀ w, F w → E (w.releaseComponent id)) : Triple P (Run.holding id body) Q E := by
  unfold Run.holding
  refine bind (Q := fun _ => I) (modify hhold) fun _ => ?_
  refine tryCatch (F := F) (bind hbody fun a => ?_) fun f => ?_
  · exact bind (Q := fun _ => Q a) (modify fun w h => hrelease a w h) fun _ => pure fun _ h => h
  · exact bind (Q := fun _ => E) (modify hfault) fun _ => throw fun _ h => h

/-- A triple that leaves no room for a fault. -/
theorem exists_ok {m : Run κ σ α} (h : Triple P m Q fun _ => False) {w : World κ σ} (hw : P w) :
    ∃ a w', m w = .ok a w' ∧ Q a w' := by
  have hrun := h w hw
  cases hresult : m w with
  | ok a w' =>
    rw [hresult] at hrun
    exact ⟨a, w', rfl, hrun⟩
  | error f w' =>
    rw [hresult] at hrun
    exact hrun.elim

end Triple

/-! ## From one world -/

theorem bind_ok {m : Run κ σ α} {f : α → Run κ σ β} {w w' : World κ σ} {a : α}
    (h : m w = .ok a w') : (m >>= f) w = f a w' := by
  show EStateM.bind m f w = _
  unfold EStateM.bind
  rw [h]

theorem bind_error {m : Run κ σ α} {f : α → Run κ σ β} {w w' : World κ σ} {e : Fault}
    (h : m w = .error e w') : (m >>= f) w = .error e w' := by
  show EStateM.bind m f w = _
  unfold EStateM.bind
  rw [h]

theorem tryCatch_ok {m : Run κ σ α} {handler : Fault → Run κ σ α} {w w' : World κ σ} {a : α}
    (h : m w = .ok a w') : (tryCatch m handler) w = .ok a w' := by
  show EStateM.tryCatch m handler w = _
  unfold EStateM.tryCatch
  rw [h]

theorem tryCatch_error {m : Run κ σ α} {handler : Fault → Run κ σ α} {w w' : World κ σ} {e : Fault}
    (h : m w = .error e w') : (tryCatch m handler) w = handler e w' := by
  show EStateM.tryCatch m handler w = _
  unfold EStateM.tryCatch
  rw [h]
  rfl

/-- Reading a document leaves the world as it is. -/
theorem readDocument_ok {w : World κ σ} {document : DocumentId}
    (read : Dom.Document (Action κ) → Except Dom.Fault α) {a : α}
    (h : read (w.document document) = .ok a) : readDocument document read w = .ok a w := by
  show ofDocument (read (w.document document)) w = _
  rw [h]
  rfl

theorem readDocument_error {w : World κ σ} {document : DocumentId}
    (read : Dom.Document (Action κ) → Except Dom.Fault α) {f : Dom.Fault}
    (h : read (w.document document) = .error f) :
    readDocument document read w = .error (.document f) w := by
  show ofDocument (read (w.document document)) w = _
  rw [h]
  rfl

/-! ## Keeping -/

/-- **A computation that keeps a property of the world**, whether it returns or fails. -/
def Keeps (I : World κ σ → Prop) (m : Run κ σ α) : Prop := Triple I m (fun _ => I) I

namespace Keeps

variable {I : World κ σ → Prop}

theorem pure (a : α) : Keeps I (Pure.pure a : Run κ σ α) := Triple.pure fun _ h => h

theorem throw (f : Fault) : Keeps I (MonadExcept.throw f : Run κ σ α) := Triple.throw fun _ h => h

theorem bind {m : Run κ σ α} {f : α → Run κ σ β} (hm : Keeps I m) (hf : ∀ a, Keeps I (f a)) :
    Keeps I (m >>= f) :=
  Triple.bind hm hf

theorem map {m : Run κ σ α} (hm : Keeps I m) (f : α → β) : Keeps I (f <$> m) :=
  Triple.map hm fun _ _ h => h

theorem discard {m : Run κ σ α} (hm : Keeps I m) : Keeps I (Functor.discard m) :=
  Triple.discard hm fun _ _ h => h

/-- An edit that depends on the world that was read just before. -/
theorem get_modify {f : World κ σ → World κ σ → World κ σ} {rest : World κ σ → Run κ σ β}
    (hf : ∀ w, I w → I (f w w)) (hrest : ∀ w, I w → Keeps I (rest w)) :
    Keeps I ((MonadState.get : Run κ σ (World κ σ)) >>= fun w =>
      (modify (f w) : Run κ σ Unit) >>= fun _ => rest w) :=
  Triple.get_bind fun w hw =>
    Triple.bind (Q := fun _ => I) (Triple.modify fun _ he => he ▸ hf w hw) fun _ => hrest w hw

theorem modify {f : World κ σ → World κ σ} (h : ∀ w, I w → I (f w)) :
    Keeps I (modify f : Run κ σ Unit) :=
  Triple.modify h

/-- Reading the world: of what is read, the property is known. -/
theorem get_bind {f : World κ σ → Run κ σ β} (h : ∀ w, I w → Keeps I (f w)) :
    Keeps I ((MonadState.get : Run κ σ (World κ σ)) >>= f) :=
  Triple.get_bind fun w hw => Triple.at_world (h w hw) hw

theorem tryCatch {m : Run κ σ α} {handler : Fault → Run κ σ α} (hm : Keeps I m)
    (hhandler : ∀ f, Keeps I (handler f)) : Keeps I (MonadExcept.tryCatch m handler) :=
  Triple.tryCatch hm hhandler

theorem holding {id : ComponentId} {body : Run κ σ α} (hhold : ∀ w, I w → I (w.holdComponent id))
    (hbody : Keeps I body) (hrelease : ∀ w, I w → I (w.releaseComponent id)) :
    Keeps I (Run.holding id body) :=
  Triple.holding hhold hbody (fun _ w h => hrelease w h) hrelease

end Keeps

/-- **The world that a computation leaves**, however it ends. -/
def left (m : Run κ σ α) (w : World κ σ) : World κ σ :=
  match m w with
  | .ok _ w' => w'
  | .error _ w' => w'

theorem Keeps.left {I : World κ σ → Prop} {m : Run κ σ α} (hm : Keeps I m) {w : World κ σ}
    (hw : I w) : I (left m w) := by
  have h := hm w hw
  unfold Run.left
  cases hresult : m w with
  | ok a w' =>
    rw [hresult] at h
    exact h
  | error f w' =>
    rw [hresult] at h
    exact h

theorem Keeps.of_ok {I : World κ σ → Prop} {m : Run κ σ α} (hm : Keeps I m) {w w' : World κ σ}
    {a : α} (hw : I w) (hresult : m w = .ok a w') : I w' := by
  have h := hm w hw
  rw [hresult] at h
  exact h

end BoundView.Run
