import BoundView.Proofs.Component.Conduct
import BoundView.Proofs.World.Idling

/-!
# User code that writes nothing

User code is **idle** when all that it asks for can be had without writing, and it does not give up. An
idle handler comes to its end, however deep the handlers are nested that it calls, and what it leaves is
idle. So are method calls and the listeners of user code.

Main statements: `idle_handle`, `idle_runAction`.
-/

namespace BoundView

open BoundView.World (Idles)

variable {κ σ : Type}

/-- **What can be had without writing.** -/
def Demand.Idle : Demand κ → Prop
  | .makeDocument | .parseDocument _ | .makeCell _ | .makeStore _ | .makeEvent _ | .stop _
  | .subscribeCell _ _ | .subscribe _ _ _ | .unsubscribe _ | .hold _ | .call _ _ _ => True
  | _ => False

/-- **User code that writes nothing.** -/
def Conduct.Idle : Conduct κ σ → Prop
  | .done => True
  | .fail _ => False
  | .look next => ∀ w, (next w).Idle
  | .note _ next => next.Idle
  | .ask demand next => demand.Idle ∧ ∀ fault, (next fault).Idle

/-- **Handlers that write nothing**, whatever they are run for, except at a point of a component's
life. -/
def Customs.Idle (customs : Customs κ σ) : Prop :=
  ∀ run occasion, (∀ id, occasion ≠ .hook id) → (customs run occasion).Idle

namespace Run

variable {α β : Type} {faulty : Prop}

/-- **A computation that writes nothing**. It may fault or not. -/
def Idle (faulty : Prop) (m : Run κ σ α) : Prop :=
  ∀ base : World κ σ, Triple base.Idles m (fun _ => base.Idles) fun w => faulty ∧ base.Idles w

namespace Idle

theorem pure (a : α) : Idle faulty (Pure.pure a : Run κ σ α) := fun _ => Triple.pure fun _ h => h

theorem bind {m : Run κ σ α} {f : α → Run κ σ β} (hm : Idle faulty m) (hf : ∀ a, Idle faulty (f a)) :
    Idle faulty (m >>= f) :=
  fun base => Triple.bind (hm base) fun a => hf a base

theorem map {m : Run κ σ α} (hm : Idle faulty m) (f : α → β) : Idle faulty (f <$> m) :=
  fun base => (hm base).map fun _ _ h => h

theorem discard {m : Run κ σ α} (hm : Idle faulty m) : Idle faulty (Functor.discard m) :=
  fun base => (hm base).discard fun _ _ h => h

theorem modify {f : World κ σ → World κ σ} (h : ∀ w : World κ σ, w.Idles (f w)) :
    Idle faulty (modify f : Run κ σ Unit) :=
  fun _ => Triple.modify fun w hw => hw.trans (h w)

/-- The rest runs from the world that was read. -/
theorem get_bind {f : World κ σ → Run κ σ β}
    (h : ∀ w : World κ σ, Triple (· = w) (f w) (fun _ => w.Idles) fun w' => faulty ∧ w.Idles w') :
    Idle faulty ((MonadState.get : Run κ σ (World κ σ)) >>= f) :=
  fun _ => Triple.get_bind fun w hw => (h w).weaken (fun _ h => h) (fun _ _ h => hw.trans h)
    fun _ h => ⟨h.1, hw.trans h.2⟩

/-- The rest writes nothing, whatever was read. -/
theorem read {f : World κ σ → Run κ σ β} (h : ∀ w : World κ σ, Idle faulty (f w)) :
    Idle faulty ((MonadState.get : Run κ σ (World κ σ)) >>= f) :=
  .get_bind fun w => (h w w).at_world (Idles.refl w)

theorem mono {m : Run κ σ α} (h : Idle faulty m) : Idle True m :=
  fun base => (h base).weaken (fun _ h => h) (fun _ _ h => h) fun _ h => ⟨trivial, h.2⟩

/-- A fault that is caught is none. -/
theorem caught {m : Run κ σ Unit} (hm : Idle True m) : Idle False (Run.caught m) :=
  fun base => Triple.tryCatch (Triple.bind (hm base) fun _ => Triple.pure fun _ h => h)
    fun _ => Triple.pure fun _ h => h.2

end Idle

/-- **An activity on behalf of a component** does what its body does while the component is held, be it
one thing where the body returns and another where it faults. -/
theorem holding_idles {id : ComponentId} {body : Run κ σ α} {w u v : World κ σ}
    (hu : u.isAlive id = true) (hv : v.isAlive id = true)
    (hbody : Triple (· = w.holdComponent id) body (fun _ => (v.holdComponent id).Idles)
      fun w' => faulty ∧ (u.holdComponent id).Idles w') :
    Triple (· = w) (holding id body) (fun _ => v.Idles) fun w' => faulty ∧ u.Idles w' := by
  refine Triple.holding ?_ hbody (fun _ _ h => Idles.releaseComponent hv h)
    fun _ h => ⟨h.1, Idles.releaseComponent hu h.2⟩
  rintro _ rfl
  rfl

theorem idle_tell (traces : List Trace) : Idle faulty (tell traces : Run κ σ Unit) :=
  .modify fun w => Idles.tell w traces

/-! ## Calls and listeners -/

section

variable {handle : Handle κ σ}

theorem idle_call (hhandle : ∀ run id event, Idle faulty (handle run (.method id event)))
    {w : World κ σ} {id : ComponentId} (halive : w.isAlive id = true) (name : String)
    (event : EventId) :
    Triple (· = w) (call handle id name event) (fun _ => w.Idles) fun w' => faulty ∧ w.Idles w' := by
  refine Triple.get_bind fun w' he => ?_
  subst he
  cases (w'.component id).method? name with
  | none => exact (Idle.pure _ w').at_world (Idles.refl _)
  | some run =>
    have hbody := (hhandle run id event (w'.holdComponent id)).at_world (Idles.refl _)
    exact Triple.bind (holding_idles halive halive hbody) fun _ => Idle.pure _ w'

/-- **A listener that writes nothing**: one of user code, or one that calls a method. -/
theorem idle_runAction (hhandle : ∀ run occasion, (∀ id, occasion ≠ .hook id) →
      Idle faulty (handle run occasion)) (event : EventId) {action : Action κ}
    (haction : ∀ id key, action ≠ .model id key) : Idle faulty (runAction handle event action) := by
  cases action with
  | handler run => exact hhandle run (.event event) fun _ he => by cases he
  | method id name =>
    refine .get_bind fun w => ?_
    by_cases halive : w.isAlive id = true
    · rw [if_pos halive]
      refine holding_idles halive halive ?_
      have hheld : (w.holdComponent id).isAlive id = true :=
        ((Idles.holdComponent halive).isAlive id).trans halive
      have hcall := idle_call (fun run id event => hhandle run (.method id event) fun _ he => by cases he)
        hheld name event
      refine Triple.bind hcall fun result => ?_
      cases result with
      | ok _ => exact Idle.pure _ _
      | error _ => exact Idle.read (fun _ => idle_tell _) _
    · rw [if_neg halive]
      exact (Idle.pure _ w).at_world (Idles.refl w)
  | model id key => exact absurd rfl (haction id key)

theorem idle_runActions (hhandle : ∀ run occasion, (∀ id, occasion ≠ .hook id) →
      Idle faulty (handle run occasion)) (event : EventId) {actions : List (Action κ)}
    (hactions : ∀ action ∈ actions, ∀ id key, action ≠ .model id key) :
    Idle faulty (runActions handle event actions) := by
  induction actions with
  | nil => exact .pure _
  | cons action rest ih =>
    obtain ⟨haction, hrest⟩ := List.forall_mem_cons.mp hactions
    exact .bind (idle_runAction hhandle event haction) fun _ => ih hrest

/-! ## User code -/

/-- **Whatever can be had without writing** leaves the world idle. -/
theorem idle_perform (hhandle : ∀ run id event, Idle True (handle run (.method id event)))
    {demand : Demand κ} (hdemand : demand.Idle) : Idle True (demand.perform handle) := by
  cases demand with
  | makeDocument => exact .modify fun w => Idles.pushDocument w _
  | parseDocument source =>
    refine Idle.discard (.bind (idle_tell _) fun _ => ?_)
    cases Dom.Document.parse (κ := Action κ) source with
    | error e => exact .pure _
    | ok d => exact .read fun _ => .bind (.modify fun w => Idles.pushDocument w _) fun _ => .pure _
  | makeCell value => exact .modify fun w => Idles.addCell w value
  | makeStore data => exact .modify fun w => Idles.makeStore w data
  | makeEvent event => exact .modify fun w => Idles.addEvent w event
  | stop event => exact .modify fun w => Idles.modifyEvent w event fun _ => ⟨rfl, rfl⟩
  | subscribeCell cell run =>
    refine .read fun w => ?_
    split
    · exact Idle.discard (.read fun _ => .bind (.modify fun w => Idles.subscribe w _ _) fun _ => .pure _)
    · exact .pure _
  | subscribe id key run =>
    refine .read fun w => Idle.discard ?_
    unfold subscribeKey
    cases (w.component id).store.cell? key with
    | none => exact .pure _
    | some cell =>
      exact .map (.read fun _ => .bind (.modify fun w => Idles.subscribe w _ _) fun _ => .pure _) _
  | unsubscribe s =>
    refine .read fun w => ?_
    split
    · exact .modify fun w => Idles.modifyHolders w s _
    · exact .pure _
  | hold id =>
    refine .get_bind fun w => ?_
    by_cases halive : w.isAlive id = true
    · rw [if_pos halive]
      refine Triple.modify ?_
      rintro _ rfl
      exact Idles.holdComponent halive
    · rw [if_neg halive]
      exact (Idle.pure _ w).at_world (Idles.refl w)
  | call id name event =>
    refine .get_bind fun w => ?_
    by_cases halive : w.isAlive id = true
    · rw [if_pos halive]
      exact (idle_call hhandle halive name event).discard fun _ _ h => h
    · rw [if_neg halive]
      exact (Idle.pure _ w).at_world (Idles.refl w)
  | edit | render | patch | setCell | mount | mountMarkup | drop | write | update | dispatch | click
  | input => exact hdemand.elim

end

/-- **User code that writes nothing** comes to its end. -/
theorem idle_run {handle : Handle κ (Diary κ σ)}
    (hhandle : ∀ run id event, Idle True (handle run (.method id event))) {conduct : Conduct κ σ}
    (hconduct : conduct.Idle) : Idle False (conduct.run handle) := by
  induction conduct with
  | done => exact .pure _
  | fail f => exact hconduct.elim
  | look next ih => exact .read fun w => ih w.seen (hconduct w.seen)
  | note change next ih => exact .bind (.modify fun w => Idles.modifyHost w _) fun _ => ih hconduct
  | ask demand next ih =>
    refine .bind (idle_perform hhandle hconduct.1).caught fun fault => ?_
    exact .bind (.modify fun w => Idles.modifyHost w _) fun _ => ih fault (hconduct.2 fault)

section

variable {customs : Customs κ σ} (hcustoms : customs.Idle)

include hcustoms

/-- **Handlers that write nothing**, at any depth. -/
theorem idle_handle (depth : Nat) (run : κ) {occasion : Occasion}
    (hoccasion : ∀ id, occasion ≠ .hook id) : Idle True (customs.handle depth run occasion) := by
  induction depth generalizing run occasion with
  | zero => exact fun base => Triple.throw fun _ h => ⟨trivial, h⟩
  | succ depth ih =>
    have hrun : Idle False ((customs run occasion).run (customs.handle depth)) :=
      idle_run (fun run id event => ih run fun _ he => by cases he) (hcustoms run occasion hoccasion)
    exact .bind (.modify fun w => Idles.modifyHost w _) fun _ => hrun.mono

/-- A handler that may run at all comes to its end. -/
theorem idle_handle_succ (depth : Nat) (run : κ) {occasion : Occasion}
    (hoccasion : ∀ id, occasion ≠ .hook id) :
    Idle False (customs.handle (depth + 1) run occasion) :=
  .bind (.modify fun w => Idles.modifyHost w _) fun _ =>
    idle_run (fun run _ _ => idle_handle hcustoms depth run fun _ he => by cases he)
      (hcustoms run occasion hoccasion)

end

end Run

end BoundView
