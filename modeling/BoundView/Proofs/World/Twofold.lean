import BoundView.World.Basic
import Mathlib.Order.Defs.PartialOrder

/-!
# Two computations side by side

Two computations are **twinned** by a relation between worlds when, run from related worlds, they end in
the same way, with related answers or with one fault, and leave related worlds. The relation may be
indexed, and the index may grow while the computations run: what is known at an index is known at every
later one. There is a rule for each way in which computations are put together.
-/

namespace BoundView.Run

variable {κ σ α α' β β' ι : Type}

/-- What holds of two outcomes. -/
def Joint (S : α → α' → Prop) (T : World κ σ → World κ σ → Prop) :
    EStateM.Result Fault (World κ σ) α → EStateM.Result Fault (World κ σ) α' → Prop
  | .ok a w, .ok b u => S a b ∧ T w u
  | .error f w, .error g u => f = g ∧ T w u
  | .ok _ _, .error _ _ | .error _ _, .ok _ _ => False

variable [Preorder ι]

/-- **Twinned computations**, from an index on. -/
def Twinned (I : ι → World κ σ → World κ σ → Prop) (i : ι) (S : α → α' → Prop) (m : Run κ σ α)
    (n : Run κ σ α') : Prop :=
  ∀ j w u, i ≤ j → I j w u → Joint S (fun w' u' => ∃ k, j ≤ k ∧ I k w' u') (m w) (n u)

/-- **Outcomes of which something holds jointly end in the same way.** -/
theorem Joint.cases {S : α → α' → Prop} {T : World κ σ → World κ σ → Prop}
    {r : EStateM.Result Fault (World κ σ) α} {r' : EStateM.Result Fault (World κ σ) α'}
    (h : Joint S T r r') :
    (∃ a w b u, r = .ok a w ∧ r' = .ok b u ∧ S a b ∧ T w u) ∨
      ∃ f w u, r = .error f w ∧ r' = .error f u ∧ T w u := by
  cases r with
  | ok a w =>
    cases r' with
    | ok b u => exact .inl ⟨a, w, b, u, rfl, rfl, h⟩
    | error g u => exact h.elim
  | error f w =>
    cases r' with
    | ok b u => exact h.elim
    | error g u =>
      obtain ⟨rfl, hT⟩ := h
      exact .inr ⟨f, w, u, rfl, rfl, hT⟩

theorem Joint.weaken {S S' : α → α' → Prop} {T T' : World κ σ → World κ σ → Prop}
    {r : EStateM.Result Fault (World κ σ) α} {r' : EStateM.Result Fault (World κ σ) α'}
    (h : Joint S T r r') (hS : ∀ a b, S a b → S' a b) (hT : ∀ w u, T w u → T' w u) :
    Joint S' T' r r' := by
  rcases h.cases with ⟨a, w, b, u, rfl, rfl, hab, hwu⟩ | ⟨f, w, u, rfl, rfl, hwu⟩
  · exact ⟨hS a b hab, hT w u hwu⟩
  · exact ⟨rfl, hT w u hwu⟩

namespace Twinned

variable {I : ι → World κ σ → World κ σ → Prop} {i : ι} {S : α → α' → Prop} {T : β → β' → Prop}

theorem later {j : ι} {m : Run κ σ α} {n : Run κ σ α'} (h : Twinned I i S m n) (hij : i ≤ j) :
    Twinned I j S m n :=
  fun k w u hjk hI => h k w u (le_trans hij hjk) hI

theorem pure {a : α} {b : α'} (h : S a b) :
    Twinned I i S (Pure.pure a : Run κ σ α) (Pure.pure b : Run κ σ α') :=
  fun j _ _ _ hI => ⟨h, j, le_refl j, hI⟩

theorem throw (f : Fault) :
    Twinned I i S (MonadExcept.throw f : Run κ σ α) (MonadExcept.throw f : Run κ σ α') :=
  fun j _ _ _ hI => ⟨rfl, j, le_refl j, hI⟩

theorem bind {m : Run κ σ α} {n : Run κ σ α'} {f : α → Run κ σ β} {g : α' → Run κ σ β'}
    (hm : Twinned I i S m n) (hf : ∀ a b, S a b → Twinned I i T (f a) (g b)) :
    Twinned I i T (m >>= f) (n >>= g) := by
  intro j w u hij hI
  show Joint T _ (EStateM.bind m f w) (EStateM.bind n g u)
  unfold EStateM.bind
  rcases (hm j w u hij hI).cases with
    ⟨a, w', b, u', hr, hr', hab, k, hjk, hI'⟩ | ⟨e, w', u', hr, hr', hI'⟩
  · rw [hr, hr']
    refine (hf a b hab k w' u' (le_trans hij hjk) hI').weaken (fun _ _ hS => hS) ?_
    rintro w'' u'' ⟨l, hkl, hI''⟩
    exact ⟨l, le_trans hjk hkl, hI''⟩
  · rw [hr, hr']
    exact ⟨rfl, hI'⟩

theorem map {m : Run κ σ α} {n : Run κ σ α'} {f : α → β} {g : α' → β'} (hm : Twinned I i S m n)
    (hf : ∀ a b, S a b → T (f a) (g b)) : Twinned I i T (f <$> m) (g <$> n) := by
  intro j w u hij hI
  show Joint T _ (EStateM.map f m w) (EStateM.map g n u)
  unfold EStateM.map
  rcases (hm j w u hij hI).cases with
    ⟨a, w', b, u', hr, hr', hab, hI'⟩ | ⟨e, w', u', hr, hr', hI'⟩
  · rw [hr, hr']
    exact ⟨hf a b hab, hI'⟩
  · rw [hr, hr']
    exact ⟨rfl, hI'⟩

/-- Whatever the answers are, if nobody asks for them. -/
theorem discard {m : Run κ σ α} {n : Run κ σ α'} (hm : Twinned I i S m n) :
    Twinned I i Eq (Functor.discard m) (Functor.discard n) :=
  hm.map fun _ _ _ => rfl

/-- Reading the worlds: the rest runs from those that were read. -/
theorem get_bind_at {f : World κ σ → Run κ σ β} {g : World κ σ → Run κ σ β'}
    (h : ∀ j w u, i ≤ j → I j w u →
      Joint T (fun w' u' => ∃ k, j ≤ k ∧ I k w' u') (f w w) (g u u)) :
    Twinned I i T ((MonadState.get : Run κ σ (World κ σ)) >>= f)
      ((MonadState.get : Run κ σ (World κ σ)) >>= g) := h

/-- Reading the worlds: of what is read, it is known that it is related. -/
theorem get_bind {f : World κ σ → Run κ σ β} {g : World κ σ → Run κ σ β'}
    (h : ∀ j w u, i ≤ j → I j w u → Twinned I j T (f w) (g u)) :
    Twinned I i T ((MonadState.get : Run κ σ (World κ σ)) >>= f)
      ((MonadState.get : Run κ σ (World κ σ)) >>= g) :=
  get_bind_at fun j w u hij hI => h j w u hij hI j w u (le_refl j) hI

/-- Edits that depend on the worlds that were read just before. The index may grow. -/
theorem get_modify {f g : World κ σ → World κ σ → World κ σ} {rest : World κ σ → Run κ σ β}
    {rest' : World κ σ → Run κ σ β'}
    (hf : ∀ j w u, i ≤ j → I j w u → ∃ k, j ≤ k ∧ I k (f w w) (g u u))
    (hrest : ∀ j w u, i ≤ j → I j w u → Twinned I j T (rest w) (rest' u)) :
    Twinned I i T
      ((MonadState.get : Run κ σ (World κ σ)) >>= fun w =>
        (modify (f w) : Run κ σ Unit) >>= fun _ => rest w)
      ((MonadState.get : Run κ σ (World κ σ)) >>= fun u =>
        (modify (g u) : Run κ σ Unit) >>= fun _ => rest' u) := by
  refine get_bind_at fun j w u hij hI => ?_
  obtain ⟨k, hjk, hI'⟩ := hf j w u hij hI
  refine (hrest j w u hij hI k _ _ hjk hI').weaken (fun _ _ hT => hT) ?_
  rintro w'' u'' ⟨l, hkl, hI''⟩
  exact ⟨l, le_trans hjk hkl, hI''⟩

theorem modify {f g : World κ σ → World κ σ}
    (h : ∀ j w u, i ≤ j → I j w u → I j (f w) (g u)) :
    Twinned I i Eq (modify f : Run κ σ Unit) (modify g : Run κ σ Unit) :=
  fun j w u hij hI => ⟨rfl, j, le_refl j, h j w u hij hI⟩

theorem tryCatch {m : Run κ σ α} {n : Run κ σ α'} {handler : Fault → Run κ σ α}
    {handler' : Fault → Run κ σ α'} (hm : Twinned I i S m n)
    (hhandler : ∀ f, Twinned I i S (handler f) (handler' f)) :
    Twinned I i S (MonadExcept.tryCatch m handler) (MonadExcept.tryCatch n handler') := by
  intro j w u hij hI
  show Joint S _ (EStateM.tryCatch m handler w) (EStateM.tryCatch n handler' u)
  unfold EStateM.tryCatch
  rcases (hm j w u hij hI).cases with
    ⟨a, w', b, u', hr, hr', hab, hI'⟩ | ⟨e, w', u', hr, hr', k, hjk, hI'⟩
  · rw [hr, hr']
    exact ⟨hab, hI'⟩
  · rw [hr, hr']
    refine (hhandler e k w' u' (le_trans hij hjk) hI').weaken (fun _ _ hS => hS) ?_
    rintro w'' u'' ⟨l, hkl, hI''⟩
    exact ⟨l, le_trans hjk hkl, hI''⟩

/-- **Activities on behalf of a component.** -/
theorem holding {id : ComponentId} {m : Run κ σ α} {n : Run κ σ α'}
    (hhold : ∀ j w u, i ≤ j → I j w u → I j (w.holdComponent id) (u.holdComponent id))
    (hbody : Twinned I i S m n)
    (hrelease : ∀ j w u, i ≤ j → I j w u → I j (w.releaseComponent id) (u.releaseComponent id)) :
    Twinned I i S (Run.holding id m) (Run.holding id n) := by
  unfold Run.holding
  refine bind (modify hhold) fun _ _ _ => tryCatch (bind hbody fun a b hab => ?_) fun f => ?_
  · exact bind (modify hrelease) fun _ _ _ => pure hab
  · exact bind (modify hrelease) fun _ _ _ => throw f

end Twinned

end BoundView.Run
