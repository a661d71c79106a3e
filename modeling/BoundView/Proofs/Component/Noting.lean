import BoundView.Proofs.Component.Auditing
import BoundView.Proofs.Component.Constancy
import BoundView.Proofs.Component.Mirroring

/-!
# User code notes what it asks for

Nothing in the world tells how often user code asked a component for a scan, nor which events on their way
through one document it dispatched in another. **Noting** user code writes this down before each demand, and
otherwise does what it did without notes, which it never reads. With these notes all that user code does
stands the audit of a component.

Main statements: `left_noting`, nobody sees the notes; `tends_run`, `tends_handle`.
-/

namespace BoundView

open BoundView.World (Tended)

variable {κ σ : Type}

/-! ## Notes -/

/-- **What user code notes of itself**: how many scans it has asked a component for, and the events that it
has led astray. -/
structure Notes where
  updates : Nat
  strays : List EventId

/-- Nothing is noted. -/
def Notes.empty : Notes := ⟨0, []⟩

/-- A world without the notes. -/
def World.unnoted (w : World κ (σ × Notes)) : World κ σ := w.mapHost Prod.fst

/-- Whether an event may be dispatched in a document without being led astray from that of a component: it
is there and at no node, or the document is the component's own. -/
def World.keepsCourse (w : World κ σ) (id : ComponentId) (document : DocumentId) (event : EventId) :
    Bool :=
  (w.events[event]?).any fun e => e.current.isNone || document == (w.component id).document

/-- The notes before a demand, with what is to be noted of it. -/
def Demand.noted (demand : Demand κ) (id : ComponentId) (w : World κ σ) (notes : Notes) : Notes :=
  match demand with
  | .update component _ =>
    if component = id then { notes with updates := notes.updates + 1 } else notes
  | .dispatch document event =>
    if w.keepsCourse id document event then notes else { notes with strays := event :: notes.strays }
  | _ => notes

/-- **User code that keeps notes** of what it asks of a component. -/
def Conduct.noting (id : ComponentId) : Conduct κ σ → Conduct κ (σ × Notes)
  | .done => .done
  | .fail f => .fail f
  | .look next => .look fun w => (next w.unnoted).noting id
  | .note change next => .note (fun own => (change own.1, own.2)) (next.noting id)
  | .ask demand next =>
    .look fun w => .note (fun own => (own.1, demand.noted id w own.2))
      (.ask demand fun fault => (next fault).noting id)

/-- **Handlers that keep notes.** -/
def Customs.noting (id : ComponentId) (customs : Customs κ σ) : Customs κ (σ × Notes) :=
  fun run occasion => (customs run occasion).noting id

/-! ## Nobody sees the notes -/

/-- A diary without the notes. -/
def Diary.unnoted (diary : Diary κ (σ × Notes)) : Diary κ σ where
  own := diary.own.1
  entered := diary.entered.map World.unnoted
  returned := diary.returned.map World.unnoted

theorem World.mapHost_noteEntry (w : World κ (Diary κ (σ × Notes))) :
    w.noteEntry.mapHost Diary.unnoted = (w.mapHost Diary.unnoted).noteEntry := by
  unfold noteEntry modifyHost mapHost Diary.unnoted
  dsimp only
  rw [List.map_append]
  rfl

theorem World.mapHost_noteReturn (w : World κ (Diary κ (σ × Notes))) :
    w.noteReturn.mapHost Diary.unnoted = (w.mapHost Diary.unnoted).noteReturn := by
  unfold noteReturn modifyHost mapHost Diary.unnoted
  dsimp only
  rw [List.map_append]
  rfl

/-- **User code that keeps notes** does what it does without them, if that is so for the handlers. -/
theorem Run.mirrors_run {handle : Handle κ (Diary κ (σ × Notes))} {handle' : Handle κ (Diary κ σ)}
    (hhandle : ∀ run occasion, Mirrors Diary.unnoted (handle run occasion) (handle' run occasion))
    (id : ComponentId) (conduct : Conduct κ σ) :
    Mirrors Diary.unnoted ((conduct.noting id).run handle) (conduct.run handle') := by
  induction conduct with
  | done => exact .pure ()
  | fail e => exact .throw e
  | look next ih => exact .get_bind fun w => ih w.seen.unnoted
  | note change next ih => exact .bind (.modify fun _ => rfl) fun _ => ih
  | ask demand next ih =>
    have hask : Mirrors Diary.unnoted ((Run.caught (demand.perform handle) >>= fun fault =>
        modify World.noteReturn >>= fun _ => ((next fault).noting id).run handle))
        ((Conduct.ask demand next).run handle') :=
      .bind (mirrors_perform hhandle demand).caught fun fault =>
        .bind (.modify World.mapHost_noteReturn) fun _ => ih fault
    -- The notes that are made before the demand are all that differs.
    exact fun w => hask (w.modifyHost fun diary =>
      { diary with own := (diary.own.1, demand.noted id w.seen diary.own.2) })

theorem Run.mirrors_handle (customs : Customs κ σ) (id : ComponentId) (depth : Nat) (run : κ)
    (occasion : Occasion) :
    Mirrors Diary.unnoted ((customs.noting id).handle depth run occasion)
      (customs.handle depth run occasion) := by
  induction depth generalizing run occasion with
  | zero => exact .throw _
  | succ depth ih =>
    exact .bind (.modify World.mapHost_noteEntry) fun _ => mirrors_run ih id (customs run occasion)

/-- **Nobody sees the notes.** What user code leaves, and every world that it finds, is what it would be if
no notes were kept. -/
theorem left_noting (customs : Customs κ σ) (id : ComponentId) (depth : Nat) (conduct : Conduct κ σ)
    (w : World κ (Diary κ (σ × Notes))) :
    (Run.left ((conduct.noting id).run ((customs.noting id).handle depth)) w).mapHost Diary.unnoted =
      Run.left (conduct.run (customs.handle depth)) (w.mapHost Diary.unnoted) :=
  (Run.mirrors_run (Run.mirrors_handle customs id depth) id conduct).left w

/-! ## What is left to components -/

/-- **A demand that leaves texts and live values to components.** -/
def Demand.Retains : Demand κ → Prop
  | .edit _ operation => operation.Retains
  | .patch _ _ _ _ _ _ => False
  | _ => True

/-- **User code that leaves texts and live values to components.** -/
def Conduct.Retains : Conduct κ σ → Prop
  | .done | .fail _ => True
  | .look next => ∀ w, (next w).Retains
  | .note _ next => next.Retains
  | .ask demand next => demand.Retains ∧ ∀ fault, (next fault).Retains

/-! ## Audits of diaries -/

/-- An audit of a world with a diary, which looks at what user code has noted. -/
def Audit.kept (a : Audit κ σ) : Audit κ (Diary κ σ) where
  id := a.id
  charter := a.charter
  base := a.base
  requests diary := a.requests diary.own
  astray diary := a.astray diary.own
  plain := a.plain
  keys := a.keys
  separate := a.separate

/-- **An audit by the notes.** -/
structure Audit.ByNotes (a : Audit κ (σ × Notes)) : Prop where
  requests : ∀ own, a.requests own = own.2.updates
  astray : ∀ own event, a.astray own event ↔ event ∈ own.2.strays

namespace World

/-- **Found in order**: user code that finds this world finds that it stands the audit. -/
def Passes (v : World κ σ) (a : Audit κ σ) : Prop :=
  ∃ pending, v.Tended (fun _ => True) a pending .start

theorem Tended.seen {w : World κ (Diary κ σ)} {note : Diary κ σ → Prop} {a : Audit κ σ}
    {pending : SubscriberId → Nat} {c : Course} (h : w.Tended note a.kept pending c) :
    w.seen.Passes a := by
  have hseen : w.seen.Tended (fun _ => True) a pending c :=
    ⟨h.orderly.seen, { h.audited with }, h.there, h.aimed⟩
  exact ⟨pending, hseen.mono ⟨fun _ he => he.elim, fun _ _ he => he.elim⟩⟩

/-- The diary gets a new entry. -/
theorem Tended.noteDown {w : World κ (Diary κ σ)} {note note' : Diary κ σ → Prop} {a : Audit κ σ}
    {pending : SubscriberId → Nat} {c : Course} (h : w.Tended note a.kept pending c)
    {f : Diary κ σ → Diary κ σ} (hnote : note w.host → note' (f w.host))
    (hown : (f w.host).own = w.host.own) : (w.modifyHost f).Tended note' a.kept pending c := by
  have hnoted : (w.modifyHost f).Tended note' (a.kept.owing 0) pending c :=
    h.modifyHost hnote (congrArg a.requests hown) fun event he =>
      (congrArg (a.astray · event) hown).mpr he
  exact hnoted

/-- **Something is noted.** Each scan that was asked for is owed. -/
theorem Tended.noteOwn {w : World κ (Diary κ (σ × Notes))} {before : Diary κ (σ × Notes)}
    {P : World κ (σ × Notes) → Prop} {a : Audit κ (σ × Notes)} (hnotes : a.ByNotes)
    {pending : SubscriberId → Nat} {c : Course} (h : w.Tended (before.Follows P) a.kept pending c)
    (f : σ × Notes → σ × Notes) (scans : Nat)
    (hupdates : (f w.host.own).2.updates = w.host.own.2.updates + scans)
    (hstrays : ∀ event ∈ w.host.own.2.strays, event ∈ (f w.host.own).2.strays) :
    (w.modifyHost fun diary => { diary with own := f diary.own }).Tended (before.Follows P)
      (a.kept.owing scans) pending c := by
  refine h.modifyHost (fun hnoted => hnoted.withOwn _) ?_ fun event he => ?_
  · show a.requests (f w.host.own) = a.requests w.host.own + scans
    rw [hnotes.requests, hnotes.requests, hupdates]
  · show a.astray (f w.host.own) event
    exact (hnotes.astray _ event).mpr (hstrays event ((hnotes.astray _ event).mp he))

end World

namespace Run

/-! ## Demands -/

section

variable {note : σ → Prop} {a : Audit κ σ} {handle : Handle κ σ}
  (hhandle : ∀ run occasion, occasion ≠ .hook a.id → Tends note a (handle run occasion))

include hhandle

omit hhandle in
theorem Tends.caught {m : Run κ σ Unit} (hm : Tends note a m) : Tends note a (caught m) :=
  fun pending c => (hm pending c).caught

/-- **Every demand keeps worlds tended**, but for scans of the component and events that are dispatched
again. -/
theorem tends_perform {demand : Demand κ} (hretains : a.plain → demand.Retains)
    (hupdate : ∀ key, demand ≠ .update a.id key)
    (hdispatch : ∀ document event, demand ≠ .dispatch document event) :
    Tends note a (demand.perform handle) := by
  cases demand with
  | makeDocument => exact .modify fun _ _ _ h => h.pushDocument _
  | parseDocument source =>
    exact fun pending c => (parseDocument_tends source).discard fun _ _ h => h.1
  | edit document operation =>
    exact .modify fun _ _ _ h => h.retain (Dom.Document.grows_perform _ operation) fun hplain =>
      Dom.Document.retains_perform _ (hretains hplain)
  | render document t context node replace =>
    refine .modify fun _ _ _ h => h.retain ?_ fun _ => ?_
    · split
      · exact t.grows_mount context _ node
      · exact t.grows_materialize context _ node
    · split
      · exact Template.retains_mount context _ node t
      · exact Template.retains_materialize context _ node t
  | patch document t lookup missing key inputs =>
    exact .modify fun _ _ _ h => h.retain (Template.grows_patch _ _ _ _) fun hplain =>
      (hretains hplain).elim
  | makeCell value => exact .modify fun _ _ _ h => h.addCell value
  | setCell cell value => exact tends_set hhandle cell value
  | makeStore data => exact .modify fun _ _ _ h => h.makeStore data
  | subscribeCell cell run =>
    refine fun pending c => Triple.get_bind fun w hw => ?_
    split
    · rename_i hlt
      exact ((subscribe_tends cell run).discard fun _ _ h => h).at_world ⟨hw, hlt⟩
    · exact (Tends.pure _ pending c).at_world hw
  | mount document config =>
    refine fun pending c => Triple.get_bind fun w hw => ?_
    split
    · rename_i hlt
      exact ((mount_tends hhandle document config).discard fun _ _ h => h).at_world ⟨hw, hlt⟩
    · exact (Tends.pure _ pending c).at_world hw
  | mountMarkup source config => exact (tends_mountMarkup hhandle source config).discard
  | hold component =>
    refine fun pending c => Triple.get_bind fun w hw => ?_
    split
    · rename_i halive
      refine Triple.modify ?_
      rintro _ rfl
      exact hw.holdComponent halive
    · exact (Tends.pure _ pending c).at_world hw
  | drop component => exact .modify fun _ _ _ h => h.releaseComponent component
  | write component key value => exact (tends_write hhandle component key value).discard
  | update component key =>
    exact (tends_refreshOther (fun he => hupdate key (he ▸ rfl)) key).discard
  | call component name event =>
    refine fun pending c => Triple.get_bind fun w hw => ?_
    split
    · rename_i halive
      exact ((call_tends hhandle component name event).discard fun _ _ h => h).at_world ⟨hw, halive⟩
    · exact (Tends.pure _ pending c).at_world hw
  | subscribe component key run => exact (tends_subscribeKey component key run).discard
  | unsubscribe s =>
    refine fun pending c => Triple.get_bind fun w hw => ?_
    split
    · rename_i run hrun
      refine Triple.modify ?_
      rintro _ rfl
      exact hw.unsubscribe hrun
    · exact (Tends.pure _ pending c).at_world hw
  | makeEvent event => exact .modify fun _ _ _ h => h.addEvent event
  | stop event =>
    exact .modify fun _ _ _ h => h.modifyEvent (fun _ => rfl) (fun _ => rfl) fun _ _ he => .inl he
  | dispatch document event => exact absurd rfl (hdispatch document event)
  | click document node => exact (tends_click hhandle document node).discard
  | input document node value => exact (tends_edit hhandle document node value).discard

end

/-- A computation whose faults are caught leaves what it leaves in either case. -/
theorem Triple.caught {P Q E : World κ σ → Prop} {m : Run κ σ Unit}
    (h : Triple P m (fun _ => Q) Q) : Triple P (Run.caught m) (fun _ => Q) E :=
  Triple.tryCatch (Triple.bind h fun _ => Triple.pure fun _ hq => hq) fun _ => Triple.pure fun _ hq => hq

/-! ## User code -/

section

variable {before : Diary κ (σ × Notes)} {a : Audit κ (σ × Notes)} (hnotes : a.ByNotes)
  {handle : Handle κ (Diary κ (σ × Notes))}
  (hhandle : ∀ run occasion, occasion ≠ .hook a.id →
    Tends (before.Follows (·.Passes a)) a.kept (handle run occasion))

include hnotes hhandle

/-- **A demand that is noted.** -/
theorem ask_tends {pending : SubscriberId → Nat} {c : Course} {demand : Demand κ}
    (hretains : a.plain → demand.Retains) {w : World κ (Diary κ (σ × Notes))}
    (hw : w.Tended (before.Follows (·.Passes a)) a.kept pending c) :
    Triple (· = w.modifyHost fun diary =>
        { diary with own := (diary.own.1, demand.noted a.id w.seen diary.own.2) })
      (caught (demand.perform handle))
      (fun _ w' => w'.Tended (before.Follows (·.Passes a)) a.kept pending c)
      fun w' => w'.Tended (before.Follows (·.Passes a)) a.kept pending c := by
  have hkeeps := fun (w' : World κ (Diary κ (σ × Notes)))
      (h : w'.Tended (before.Follows (·.Passes a)) a.kept pending c) => h
  have hnote : ∀ {notes : Notes} (scans : Nat), demand.noted a.id w.seen w.host.own.2 = notes →
      notes.updates = w.host.own.2.updates + scans →
        (∀ event ∈ w.host.own.2.strays, event ∈ notes.strays) →
          (w.modifyHost fun diary =>
            { diary with own := (diary.own.1, demand.noted a.id w.seen diary.own.2) }).Tended
              (before.Follows (·.Passes a)) (a.kept.owing scans) pending c := by
    rintro _ scans rfl hupdates hstrays
    exact hw.noteOwn hnotes (fun own => (own.1, demand.noted a.id w.seen own.2)) scans hupdates hstrays
  by_cases hupdate : ∃ key, demand = .update a.id key
  · obtain ⟨key, rfl⟩ := hupdate
    refine Triple.at_world (P := fun w' => w'.Tended (before.Follows (·.Passes a)) (a.kept.owing 1)
      pending c) ?_ (hnote 1 (if_pos rfl) rfl fun _ he => he)
    exact Triple.tryCatch (Triple.bind (Triple.discard (refresh_tends (a := a.kept) key)
      fun _ _ h => h) fun _ => Triple.pure hkeeps) fun _ => Triple.pure fun _ h => h.elim
  by_cases hdispatch : ∃ document event, demand = .dispatch document event
  · obtain ⟨document, event, rfl⟩ := hdispatch
    by_cases hcourse : w.seen.keepsCourse a.id document event = true
    · obtain ⟨e, he, hkept⟩ := (Option.any_eq_true _ _).mp hcourse
      rw [Bool.or_eq_true, beq_iff_eq, Option.isNone_iff_eq_none] at hkept
      have hdocument : (w.component a.id).document = a.charter.document := hw.audited.document
      exact (Triple.discard (dispatch_noted (a := a.kept) hhandle (hnote 0 (if_pos hcourse) rfl fun _ h => h)
        (.inl ⟨e, he, hkept.imp_right (·.trans hdocument)⟩)) fun _ _ h => h).caught
    · have hnoted : (Demand.dispatch document event : Demand κ).noted a.id w.seen w.host.own.2 =
          { w.host.own.2 with strays := event :: w.host.own.2.strays } := if_neg hcourse
      refine (Triple.discard (dispatch_noted (a := a.kept) hhandle (hnote 0 hnoted rfl fun _ h =>
        List.mem_cons_of_mem event h) (.inr ?_)) fun _ _ h => h).caught
      show a.astray (w.host.own.1, (Demand.dispatch document event : Demand κ).noted a.id w.seen
        w.host.own.2) event
      rw [hnotes.astray, hnoted]
      exact List.mem_cons_self
  · have hsame : demand.noted a.id w.seen w.host.own.2 = w.host.own.2 := by
      cases demand with
      | update component key =>
        have hother : component ≠ a.id := fun he => hupdate ⟨key, he ▸ rfl⟩
        exact if_neg hother
      | dispatch document event => exact absurd ⟨document, event, rfl⟩ hdispatch
      | _ => rfl
    exact ((tends_perform (a := a.kept) hhandle hretains (fun key he => hupdate ⟨key, he⟩)
      fun document event he => hdispatch ⟨document, event, he⟩).caught pending c).at_world
        (hnote 0 hsame rfl fun _ he => he)

/-- **User code that keeps notes** stands the audit, and finds only worlds that do. -/
theorem tends_run {conduct : Conduct κ σ} (hretains : a.plain → conduct.Retains) :
    Tends (before.Follows (·.Passes a)) a.kept ((conduct.noting a.id).run handle) := by
  induction conduct with
  | done => exact .pure _
  | fail f => exact .throw f
  | look next ih => exact .get_bind fun w => ih w.seen.unnoted fun hplain => hretains hplain _
  | note change next ih =>
    refine .bind (.modify fun _ _ w h => ?_) fun _ => ih hretains
    exact h.noteOwn hnotes (fun own => (change own.1, own.2)) 0 rfl fun _ he => he
  | ask demand next ih =>
    refine fun pending c => Triple.get_bind fun w hw => ?_
    refine Triple.bind (Q := fun _ w' => w' = w.modifyHost fun diary =>
      { diary with own := (diary.own.1, demand.noted a.id w.seen diary.own.2) })
      (Triple.modify fun _ he => by rw [he]) fun _ => ?_
    refine Triple.bind (ask_tends hnotes hhandle (fun hplain => (hretains hplain).1) hw) fun fault => ?_
    refine Triple.bind (Q := fun _ w => w.Tended (before.Follows (·.Passes a)) a.kept pending c)
      (Triple.modify fun w h => ?_) fun _ => ih fault (fun hplain => (hretains hplain).2 fault) pending c
    exact h.noteDown (fun hnoted => hnoted.noteReturn h.seen) rfl

omit hhandle in
/-- **Running handlers** that keep notes does so at every depth. -/
theorem tends_handle {customs : Customs κ σ}
    (hcustoms : a.plain → ∀ run occasion, occasion ≠ .hook a.id → (customs run occasion).Retains)
    (depth : Nat) {run : κ} {occasion : Occasion}
    (hretains : a.plain → (customs run occasion).Retains) :
    Tends (before.Follows (·.Passes a)) a.kept ((customs.noting a.id).handle depth run occasion) := by
  induction depth generalizing run occasion with
  | zero => exact .throw _
  | succ depth ih =>
    refine .bind (.modify fun _ _ w h => ?_) fun _ => tends_run hnotes (fun run occasion hne =>
      ih fun hplain => hcustoms hplain run occasion hne) hretains
    exact h.noteDown (fun hnoted => hnoted.noteEntry h.seen) rfl

omit hhandle in
/-- The component's own hooks. -/
theorem tends_hook {customs : Customs κ σ}
    (hcustoms : a.plain → ∀ run occasion, occasion ≠ .hook a.id → (customs run occasion).Retains)
    (depth : Nat) {hook : Option κ}
    (hretains : a.plain → ∀ run, hook = some run → (customs run (.hook a.id)).Retains) :
    Tends (before.Follows (·.Passes a)) a.kept
      (runHook ((customs.noting a.id).handle depth) a.id hook) := by
  cases hook with
  | none => exact .pure _
  | some run => exact tends_handle hnotes hcustoms depth fun hplain => hretains hplain run rfl

end

end Run

end BoundView
