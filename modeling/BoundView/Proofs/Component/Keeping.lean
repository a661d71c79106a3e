import BoundView.Proofs.Component.Conduct
import BoundView.Proofs.World.Precinct
import BoundView.Proofs.World.Twofold

/-!
# User code that keeps to its component

User code **keeps to a component** when it asks for nothing but what the component can do itself (its
keys are written, brought up to date and subscribed to, its methods are called, it is held and let go),
when it keeps notes only where the component has them, and when what it goes on with depends on nothing
but what belongs to the component.

If all handlers of a component keep to it, then whatever they ask for is done within the component, and
comes out alike in worlds that are alike for it: a write with its round, the turns of its subscribers
with what they ask for in their turn, calls of methods, at every depth.

Main statements: `twinned_perform`, `twinned_run`, `twinned_handle`.
-/

namespace BoundView

open BoundView.Dom (Document NodeId)
open BoundView.Interpolation (Lookup MissingKey)
open BoundView.World (Alike Owns Stands Within)
open List (Forall₂)

variable {κ σ τ : Type}

/-- **What a component can be asked for by its own.** Ending a subscription is not among it. A subscriber
has its number from the count of all subscribers in the world, so in worlds that are alike for the component
one number can stand for different subscribers, and asking to end it is not asking for the same thing. -/
def Demand.Own (division : Division κ σ τ) (id : ComponentId) : Demand κ → Prop
  | .write other _ _ | .update other _ | .call other _ _ | .hold other | .drop other => other = id
  | .subscribe other _ run => other = id ∧ division.listens id run
  | _ => False

/-- **User code that keeps to a component.** -/
def Conduct.KeepsTo (division : Division κ σ τ) (id : ComponentId) : Conduct κ σ → Prop
  | .done | .fail _ => True
  | .look next =>
    (∀ ρ w u, w.Stands division id → u.Stands division id → w.Alike division id ρ u →
      next u = next w) ∧ ∀ w, (next w).KeepsTo division id
  | .note change next =>
    ((∀ s s', division.memory id s' = division.memory id s →
        division.memory id (change s') = division.memory id (change s)) ∧
      ∀ s other, other ≠ id → division.memory other (change s) = division.memory other s) ∧
      next.KeepsTo division id
  | .ask demand next => demand.Own division id ∧ ∀ fault, (next fault).KeepsTo division id

/-- **Customs under which handlers keep to their components.** -/
structure Customs.Divided (division : Division κ σ τ) (customs : Customs κ σ) : Prop where
  listens : ∀ id run, division.listens id run → ∀ value,
    (customs run (.write value)).KeepsTo division id
  answers : ∀ id run, division.answers id run → ∀ event,
    (customs run (.method id event)).KeepsTo division id

/-- The division of the state of a program, of which a diary is kept. -/
def Division.kept (division : Division κ σ τ) : Division κ (Diary κ σ) τ :=
  { division with memory := fun id diary => division.memory id diary.own }

/-! ## Twins -/

namespace World

/-- **Two worlds in which one component has been active**, with the same effect in its precinct. -/
structure Twins (division : Division κ σ τ) (id : ComponentId) (w₀ u₀ : World κ σ)
    (ρ : SubscriberId → SubscriberId → Prop) (w u : World κ σ) : Prop where
  mine : w₀.Within division id w
  yours : u₀.Within division id u
  alike : w.Alike division id ρ u
  free : ∀ s s', ρ s s' → w₀.Free id s ∧ u₀.Free id s'

variable {division : Division κ σ τ} {id : ComponentId} {w₀ u₀ w u : World κ σ}
  {ρ : SubscriberId → SubscriberId → Prop}

/-- **At the start** the subscribers that matter are those of the crew. -/
theorem Alike.twins (h : w.Alike division id ρ u) :
    Twins division id w u (fun s s' => (w.Crew id s ∧ u.Crew id s') ∧ ρ s s') w u where
  mine := .refl division id w
  yours := .refl division id u
  alike := h.among (fun _ _ hs => hs.2) fun _ _ hs hs' hρ => ⟨⟨hs, hs'⟩, hρ⟩
  free _ _ hs := ⟨.inl hs.1.1, .inl hs.1.2⟩

/-- **What a component that stands has rendered is patched** without a fault. -/
theorem Stands.patches (hw : w.Stands division id) {t : Template}
    (ht : (w.component id).template = some t) (key : String) :
    (w.patched (w.component id) t key).fault = none ∧
      Patches (w.lookup (w.component id).store) (w.component id).options.missingKey (w.page id)
        (t.affected key (w.component id).options.syncInputs)
        (w.patched (w.component id) t key).document :=
  (hw.housed t ht).patches _ _ key _

namespace Twins

variable (hw₀ : w₀.Stands division id) (hu₀ : u₀.Stands division id)
  (h : Twins division id w₀ u₀ ρ w u)

include h

theorem withTraces (traces traces' : Array Trace) :
    Twins division id w₀ u₀ ρ { w with traces } { u with traces := traces' } :=
  ⟨h.mine.withTraces traces, h.yours.withTraces traces', h.alike.withTraces traces traces', h.free⟩

theorem tell (traces traces' : List Trace) :
    Twins division id w₀ u₀ ρ (w.tell traces) (u.tell traces') := h.withTraces _ _

theorem modifyHost {f g : σ → σ} (hown : ∀ s s', division.memory id s' = division.memory id s →
      division.memory id (g s') = division.memory id (f s))
    (hf : ∀ s other, other ≠ id → division.memory other (f s) = division.memory other s)
    (hg : ∀ s other, other ≠ id → division.memory other (g s) = division.memory other s) :
    Twins division id w₀ u₀ ρ (w.modifyHost f) (u.modifyHost g) :=
  ⟨h.mine.modifyHost hf, h.yours.modifyHost hg, h.alike.modifyHost hown, h.free⟩

theorem holdSubscribers {ss ss' : List SubscriberId} (hss : Forall₂ ρ ss ss') :
    Twins division id w₀ u₀ ρ (ss.foldl World.holdSubscriber w)
      (ss'.foldl World.holdSubscriber u) := by
  induction hss generalizing w u with
  | nil => exact h
  | cons hs _ ih =>
    obtain ⟨hmine, hyours⟩ := h.free _ _ hs
    exact ih ⟨h.mine.modifyHolders hmine _, h.yours.modifyHolders hyours _,
      h.alike.modifyHolders hs _, h.free⟩

theorem releaseSubscribers {ss ss' : List SubscriberId} (hss : Forall₂ ρ ss ss') :
    Twins division id w₀ u₀ ρ (ss.foldl World.releaseSubscriber w)
      (ss'.foldl World.releaseSubscriber u) := by
  induction hss generalizing w u with
  | nil => exact h
  | cons hs _ ih =>
    obtain ⟨hmine, hyours⟩ := h.free _ _ hs
    exact ih ⟨h.mine.modifyHolders hmine _, h.yours.modifyHolders hyours _,
      h.alike.modifyHolders hs _, h.free⟩

include hw₀ hu₀

theorem stands : w.Stands division id ∧ u.Stands division id :=
  ⟨h.mine.stands hw₀, h.yours.stands hu₀⟩

theorem storeValue {cell : CellId} (hcell : w.Owns id cell) (value : Value) :
    Twins division id w₀ u₀ ρ (w.storeValue cell value) (u.storeValue cell value) := by
  obtain ⟨hw, hu⟩ := h.stands hw₀ hu₀
  exact ⟨h.mine.storeValue hcell value, h.yours.storeValue (h.alike.owns.mpr hcell) value,
    h.alike.storeValue hw hu hcell value, h.free⟩

theorem count (f g : Nat → Nat) :
    Twins division id w₀ u₀ ρ
      (w.modifyComponent id fun c => { c with scans := f c.scans, holders := g c.holders })
      (u.modifyComponent id fun c => { c with scans := f c.scans, holders := g c.holders }) := by
  obtain ⟨hw, hu⟩ := h.stands hw₀ hu₀
  exact ⟨h.mine.count hw.there f g, h.yours.count hu.there f g,
    h.alike.count hw.there hu.there f g, h.free⟩

theorem holdComponent :
    Twins division id w₀ u₀ ρ (w.holdComponent id) (u.holdComponent id) :=
  h.count hw₀ hu₀ (fun n => n) (· + 1)

theorem releaseComponent :
    Twins division id w₀ u₀ ρ (w.releaseComponent id) (u.releaseComponent id) := by
  obtain ⟨hw, hu⟩ := h.stands hw₀ hu₀
  exact ⟨h.mine.releaseComponent hw.there, h.yours.releaseComponent hu.there,
    h.alike.releaseComponent hw.there hu.there, h.free⟩

/-- **A handler of the component's own is subscribed.** -/
theorem subscribe {cell : CellId} (hcell : w.Owns id cell) {run : κ}
    (hrun : division.listens id run) :
    ∃ ρ', ρ ≤ ρ' ∧ Twins division id w₀ u₀ ρ' (w.subscribe cell (.handler run))
      (u.subscribe cell (.handler run)) := by
  obtain ⟨hw, hu⟩ := h.stands hw₀ hu₀
  refine ⟨_, fun s s' hs => .inl hs, h.mine.subscribe hw hcell hrun,
    h.yours.subscribe hu (h.alike.owns.mpr hcell) hrun, h.alike.subscribe hw hu hcell hrun, ?_⟩
  rintro s s' (hs | ⟨rfl, rfl⟩)
  · exact h.free s s' hs
  · exact ⟨.inr h.mine.subscribers, .inr h.yours.subscribers⟩

/-- **What the component has rendered for a key is brought up to date.** -/
theorem patched {t : Template} (ht : (w.component id).template = some t) (key : String) :
    Twins division id w₀ u₀ ρ
      (w.setDocument (w.component id).document (w.patched (w.component id) t key).document)
      (u.setDocument (u.component id).document (u.patched (u.component id) t key).document) := by
  obtain ⟨hw, hu⟩ := h.stands hw₀ hu₀
  obtain ⟨_, hpatches⟩ := hw.patches ht key
  obtain ⟨_, hpatches'⟩ := hu.patches (h.alike.template.trans ht) key
  rw [h.alike.options, h.alike.lookup] at hpatches'
  refine ⟨h.mine.setPage hw hpatches.links (Template.grows_patch _ _ _ _)
    (fun hcoherent => Template.coherent_patch hcoherent _ _ _)
    (fun node hnode => hpatches.others node fun hmem => hnode t ht ((sublist_affected _ _ t).subset hmem)),
    h.yours.setPage hu hpatches'.links (Template.grows_patch _ _ _ _)
    (fun hcoherent => Template.coherent_patch hcoherent _ _ _)
    (fun node hnode => hpatches'.others node fun hmem =>
      hnode t (h.alike.template.trans ht) ((sublist_affected _ _ t).subset hmem)),
    h.alike.setPage hw hu hpatches.links hpatches'.links fun node hnode => ?_, h.free⟩
  -- an affected node is revised alike in both documents, any other is left alone in both
  by_cases hmem : node ∈ (t.affected key (w.component id).options.syncInputs).map Affected.node
  · obtain ⟨a, ha, rfl⟩ := List.mem_map.mp hmem
    rw [hpatches.revised a ha, hpatches'.revised a ha, h.alike.content a.node hnode]
  · rw [hpatches.others node hmem, hpatches'.others node hmem, h.alike.content node hnode]

end Twins

end World

/-! ## The activity of a component -/

namespace Run

open BoundView.World (Twins)

variable {division : Division κ σ τ} {id : ComponentId} {w₀ u₀ : World κ σ}
  {ρ : SubscriberId → SubscriberId → Prop}

theorem twinned_tell (traces traces' : List Trace) :
    Twinned (Twins division id w₀ u₀) ρ Eq (tell traces) (tell traces') :=
  .modify fun _ _ _ _ h => h.tell traces traces'

section

variable (hw₀ : w₀.Stands division id) (hu₀ : u₀.Stands division id)

include hw₀ hu₀

/-- **Bringing a key up to date.** -/
theorem twinned_refresh (key : String) :
    Twinned (Twins division id w₀ u₀) ρ (fun _ _ => True) (refresh id key) (refresh id key) := by
  -- what is read of the component at first holds later on, but for its counts
  have hcounts : ∀ {v v' v'' : World κ σ}, v.Within division id v' → v.Within division id v'' →
      ∀ t, v''.patched (v'.component id) t key = v''.patched (v''.component id) t key := by
    intro v v' v'' h h' t
    obtain ⟨_, _, hcomponent⟩ := h.component
    obtain ⟨_, _, hcomponent'⟩ := h'.component
    rw [hcomponent, hcomponent']
    rfl
  refine .get_bind fun ρ₁ w u _ h => ?_
  dsimp only
  rw [h.alike.template]
  cases ht : (w.component id).template with
  | none => exact .pure trivial
  | some t =>
    refine .bind (.modify fun _ _ _ _ h => h.count hw₀ hu₀ (· + 1) fun n => n) fun _ _ _ => ?_
    refine .bind (twinned_tell _ _) fun _ _ _ => ?_
    refine .get_modify (fun ρ₂ w' u' _ h' => ⟨ρ₂, le_refl _, ?_⟩) fun ρ₂ w' u' _ h' => ?_
    · rw [hcounts h.mine h'.mine, hcounts h.yours h'.yours,
        ← h'.mine.document.trans h.mine.document.symm, ← h'.yours.document.trans h.yours.document.symm]
      exact h'.patched hw₀ hu₀ (h'.mine.template.trans (h.mine.template.symm.trans ht)) key
    · obtain ⟨hw, hu⟩ := h'.stands hw₀ hu₀
      have ht' := h'.mine.template.trans (h.mine.template.symm.trans ht)
      rw [hcounts h.mine h'.mine, hcounts h.yours h'.yours, (hw.patches ht' key).1,
        (hu.patches (h'.alike.template.trans ht') key).1]
      refine .bind (twinned_tell _ _) fun _ _ _ => ?_
      exact .bind (twinned_tell _ _) fun _ _ _ => .pure trivial

/-! ### Rounds -/

section

variable {handle : Handle κ σ}
  (hhandle : ∀ run, division.listens id run → ∀ value,
    Twinned (Twins division id w₀ u₀) ρ Eq (handle run (.write value)) (handle run (.write value)))

include hhandle

/-- **The turn of one subscriber** of the component's crew. -/
theorem twinned_react {s s' : SubscriberId} (hs : ρ s s') (value : Value) :
    Twinned (Twins division id w₀ u₀) ρ Eq (react handle s value) (react handle s' value) := by
  refine .get_bind fun ρ₁ w u hρ h => ?_
  obtain ⟨reaction, hreaction, hbelongs⟩ := h.alike.belongs s s' (hρ s s' hs)
  rw [show (u.subscribers[s']?).map Subscriber.reaction = _ from h.alike.reaction? (hρ s s' hs),
    show (w.subscribers[s]?).map Subscriber.reaction = some reaction from hreaction,
    show w.reaction? s = some reaction from hreaction]
  cases reaction with
  | handler run => exact (hhandle run hbelongs value).later hρ
  | patch other key =>
    obtain rfl : other = id := hbelongs
    refine .get_bind fun ρ₂ w' u' _ h' => ?_
    rw [h'.alike.isAlive]
    split
    · exact (twinned_refresh hw₀ hu₀ key).discard
    · exact .pure rfl

omit hw₀ hu₀ hhandle in
/-- **A round.** -/
theorem twinned_notify {turn turn' : SubscriberId → Run κ σ Unit}
    (hturn : ∀ s s', ρ s s' → Twinned (Twins division id w₀ u₀) ρ Eq (turn s) (turn' s'))
    {round round' : List SubscriberId} (hround : Forall₂ ρ round round') :
    Twinned (Twins division id w₀ u₀) ρ Eq (notify turn round) (notify turn' round') := by
  induction hround with
  | nil => exact .pure rfl
  | cons hs hround ih =>
    refine .bind (.tryCatch (hturn _ _ hs) fun f => ?_) fun _ _ _ => ?_
    · refine .bind (.modify fun ρ₁ w u hρ h => ?_) fun _ _ _ => .throw f
      exact h.releaseSubscribers ((hround.imp hρ).cons (hρ _ _ hs))
    · refine .bind (.modify fun ρ₁ w u hρ h => ?_) fun _ _ _ => ih
      exact h.releaseSubscribers (.cons (hρ _ _ hs) .nil)

/-- **A write to a key of the component**, with all that follows. -/
theorem twinned_write (key : String) (value : Value) :
    Twinned (Twins division id w₀ u₀) ρ Eq (write handle id key value) (write handle id key value) := by
  refine .get_bind fun ρ₁ w u hρ h => ?_
  rw [h.alike.store]
  unfold setKey
  cases hkey : (w.component id).store.cell? key with
  | none => exact .pure rfl
  | some cell =>
    refine .bind (S := Eq) ?_ fun _ _ _ => .pure rfl
    have howns : ∀ {v v' : World κ σ}, v.Within division id w → v.Within division id v' →
        v'.Owns id cell := fun h h' => h'.owns.mpr (h.owns.mp ⟨key, hkey⟩)
    refine .bind (.modify fun _ w' _ _ h' => h'.storeValue hw₀ hu₀ (howns h.mine h'.mine) value)
      fun _ _ _ => .get_bind fun ρ₂ w' u' hρ₁ h' => ?_
    have hround := (h'.alike.cells cell (howns h.mine h'.mine)).subscribers
    refine .bind (.modify fun _ _ _ hρ' h'' => h''.holdSubscribers (hround.imp hρ')) fun _ _ _ => ?_
    refine twinned_notify (fun s s' hs => ?_) hround
    exact twinned_react hw₀ hu₀ (fun run hrun value => (hhandle run hrun value).later
      (le_trans hρ hρ₁)) hs value

/-! ### Demands -/

omit hhandle in
/-- **A method is called.** -/
theorem twinned_call (hanswers : ∀ run, division.answers id run → ∀ event,
      Twinned (Twins division id w₀ u₀) ρ Eq (handle run (.method id event))
        (handle run (.method id event))) (name : String) (event : EventId) :
    Twinned (Twins division id w₀ u₀) ρ Eq (call handle id name event) (call handle id name event) := by
  refine .get_bind fun ρ₁ w u hρ h => ?_
  rw [h.alike.method?]
  cases hmethod : (w.component id).method? name with
  | none => exact .pure rfl
  | some run =>
    have hrun := (h.stands hw₀ hu₀).1.methods name run hmethod
    refine .bind (.holding (fun _ _ _ _ h => h.holdComponent hw₀ hu₀)
      ((hanswers run hrun event).later hρ) fun _ _ _ _ h => h.releaseComponent hw₀ hu₀) ?_
    exact fun _ _ _ => .pure rfl

omit hhandle in
/-- **A handler is subscribed**, under one number or another. -/
theorem twinned_subscribe {cell : CellId} (hcell : w₀.Owns id cell) {run : κ}
    (hrun : division.listens id run) :
    Twinned (Twins division id w₀ u₀) ρ (fun _ _ => True) (subscribe cell (.handler run))
      (subscribe cell (.handler run)) :=
  .get_modify (fun _ _ _ _ h => h.subscribe hw₀ hu₀ (h.mine.owns.mpr hcell) hrun)
    fun _ _ _ _ _ => .pure trivial

/-- **Whatever a component's own ask for** is done within it, and comes out alike. -/
theorem twinned_perform (hanswers : ∀ run, division.answers id run → ∀ event,
      Twinned (Twins division id w₀ u₀) ρ Eq (handle run (.method id event))
        (handle run (.method id event))) {demand : Demand κ} (hdemand : demand.Own division id) :
    Twinned (Twins division id w₀ u₀) ρ Eq (demand.perform handle) (demand.perform handle) := by
  cases demand with
  | write other key value =>
    obtain rfl : other = id := hdemand
    exact (twinned_write hw₀ hu₀ hhandle key value).discard
  | update other key =>
    obtain rfl : other = id := hdemand
    exact (twinned_refresh hw₀ hu₀ key).discard
  | call other name event =>
    obtain rfl : other = id := hdemand
    refine .get_bind fun ρ₁ w u hρ h => ?_
    rw [h.alike.isAlive]
    split
    · exact ((twinned_call hw₀ hu₀ hanswers name event).discard).later hρ
    · exact .pure rfl
  | hold other =>
    obtain rfl : other = id := hdemand
    refine .get_bind fun ρ₁ w u hρ h => ?_
    rw [h.alike.isAlive]
    split
    · exact .modify fun _ _ _ _ h' => h'.holdComponent hw₀ hu₀
    · exact .pure rfl
  | drop other =>
    obtain rfl : other = id := hdemand
    exact .modify fun _ _ _ _ h => h.releaseComponent hw₀ hu₀
  | subscribe other key run =>
    obtain ⟨rfl, hrun⟩ := hdemand
    refine .get_bind fun ρ₁ w u hρ h => ?_
    rw [h.alike.store]
    unfold subscribeKey
    cases hkey : (w.component other).store.cell? key with
    | none => exact .pure rfl
    | some cell =>
      exact .map (.map (T := fun _ _ => True) (twinned_subscribe hw₀ hu₀
        (h.mine.owns.mp ⟨key, hkey⟩) hrun) fun _ _ _ => trivial) fun _ _ _ => rfl
  | makeDocument | parseDocument | edit | render | patch | makeCell | setCell | makeStore
  | subscribeCell | mount | mountMarkup | unsubscribe | makeEvent | stop | dispatch | click
  | input => exact hdemand.elim

end

end

/-! ### User code -/

theorem Twinned.caught {I : (SubscriberId → SubscriberId → Prop) → World κ σ → World κ σ → Prop}
    {m n : Run κ σ Unit} (h : Twinned I ρ Eq m n) : Twinned I ρ Eq (caught m) (caught n) :=
  .tryCatch (.bind h fun _ _ _ => .pure rfl) fun _ => .pure rfl

section

variable {w₀ u₀ : World κ (Diary κ σ)} (hw₀ : w₀.Stands division.kept id)
  (hu₀ : u₀.Stands division.kept id)

include hw₀ hu₀

/-- **User code that keeps to a component** stays within it, and comes out alike. -/
theorem twinned_run {handle : Handle κ (Diary κ σ)}
    (hlistens : ∀ ρ run, division.listens id run → ∀ value,
      Twinned (Twins division.kept id w₀ u₀) ρ Eq (handle run (.write value))
        (handle run (.write value)))
    (hanswers : ∀ ρ run, division.answers id run → ∀ event,
      Twinned (Twins division.kept id w₀ u₀) ρ Eq (handle run (.method id event))
        (handle run (.method id event))) {conduct : Conduct κ σ}
    (hconduct : conduct.KeepsTo division id) :
    Twinned (Twins division.kept id w₀ u₀) ρ Eq (conduct.run handle) (conduct.run handle) := by
  induction conduct generalizing ρ with
  | done => exact .pure rfl
  | fail f => exact .throw f
  | look next ih =>
    refine .get_bind fun ρ₁ w u _ h => ?_
    obtain ⟨hw, hu⟩ := h.stands hw₀ hu₀
    rw [hconduct.1 ρ₁ w.seen u.seen { hw with } { hu with } { h.alike with }]
    exact ih w.seen (hconduct.2 w.seen)
  | note change next ih =>
    obtain ⟨⟨hown, hothers⟩, hnext⟩ := hconduct
    refine .bind (.modify fun _ w u _ h => ?_) fun _ _ _ => ih hnext
    exact h.modifyHost (fun s s' => hown s.own s'.own) (fun s => hothers s.own)
      fun s => hothers s.own
  | ask demand next ih =>
    refine .bind (twinned_perform hw₀ hu₀ (hlistens _) (hanswers _) hconduct.1).caught ?_
    rintro fault _ rfl
    refine .bind (.modify fun _ w u _ h => ?_) fun _ _ _ => ih fault (hconduct.2 fault)
    exact h.modifyHost (fun _ _ hs => hs) (fun _ _ _ => rfl) fun _ _ _ => rfl

/-- **Handlers that keep to a component** do so at every depth. -/
theorem twinned_handle {customs : Customs κ σ} (hcustoms : customs.Divided division) (depth : Nat)
    {run : κ} {occasion : Occasion} (hrun : (customs run occasion).KeepsTo division id) :
    Twinned (Twins division.kept id w₀ u₀) ρ Eq (customs.handle depth run occasion)
      (customs.handle depth run occasion) := by
  induction depth generalizing run occasion ρ with
  | zero => exact .throw _
  | succ depth ih =>
    refine .bind (.modify fun _ w u _ h => ?_) fun _ _ _ => twinned_run hw₀ hu₀ ?_ ?_ hrun
    · exact h.modifyHost (fun _ _ hs => hs) (fun _ _ _ => rfl) fun _ _ _ => rfl
    · exact fun _ run hlistens value => ih (hcustoms.listens id run hlistens value)
    · exact fun _ run hanswers event => ih (hcustoms.answers id run hanswers event)

end

end Run

end BoundView
