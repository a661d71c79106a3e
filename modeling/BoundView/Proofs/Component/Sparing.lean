import BoundView.Proofs.Component.Lasting
import BoundView.Proofs.World.Attending

/-!
# User code that spares an event

To attend an event is durable, so every computation does that may run handlers which do. By recursion on
the depth to which handlers are nested, and on what each of them asks for, so does all user code. Where
the event is at present stays as well if user code **spares** the event: if it never dispatches this very
one.

Main statements: `attends_run`, `attends_handle`.
-/

namespace BoundView

open BoundView.World (Attends Durable)

variable {κ σ : Type}

/-- **User code that spares an event**: as long as the event is there, only others are dispatched. -/
def Conduct.Spares {κ σ : Type} (event : EventId) : Conduct κ σ → Prop
  | .done | .fail _ => True
  | .look next => ∀ w, event < w.events.size → (next w).Spares event
  | .note _ next => next.Spares event
  | .ask demand next =>
    (∀ document, demand ≠ .dispatch document event) ∧ ∀ fault, (next fault).Spares event

/-- **Handlers all of which spare an event.** -/
def Customs.Spares {κ σ : Type} (customs : Customs κ σ) (event : EventId) : Prop :=
  ∀ run occasion, (customs run occasion).Spares event

namespace Run

variable {event : EventId} {P : Event → Prop} {document : DocumentId} {n : Nat}
  (hstop : ∀ e, P e → P { e with stopped := true })

include hstop

/-- **User code attends an event.** Either it spares the event, or it is not spoken of where the event
is at present. -/
theorem attends_run {handle : Handle κ (Diary κ σ)}
    (hhandle : ∀ run occasion, Keeps (Attends event P document n) (handle run occasion))
    {conduct : Conduct κ σ}
    (hspares : conduct.Spares event ∨ ∀ e node, P e → P { e with current := node }) :
    Keeps (Attends event P document n) (conduct.run handle) := by
  have hI : Durable (Attends event P document n : World κ (Diary κ σ) → Prop)
      ⟨fun other => other ≠ event ∨ ∀ e node, P e → P { e with current := node }, fun _ => True, False⟩ :=
    World.durable_attends hstop (fun hfree => hfree.resolve_left fun hne => hne rfl)
      fun other hother => .inl (Nat.ne_of_gt hother)
  induction conduct with
  | done => exact .pure _
  | fail f => exact .throw f
  | look next ih =>
    exact .get_bind fun w hw => ih w.seen (hspares.imp_left fun hnext => hnext w.seen hw.event_lt)
  | note change next ih => exact .bind (.modify fun w h => { h with }) fun _ => ih hspares
  | ask demand next ih =>
    have hdemand : Keeps (Attends event P document n) (demand.perform handle) := by
      refine keeps_perform hI hhandle (fun other dispatched hdispatch => hspares.imp_left ?_) False.elim
      rintro ⟨hothers, -⟩ rfl
      exact hothers other hdispatch
    refine .bind hdemand.caught fun fault => .bind (.modify fun w h => { h with }) fun _ => ?_
    exact ih fault (hspares.imp_left fun hnext => hnext.2 fault)

/-- **Running handlers** does so at every depth. -/
theorem attends_handle {customs : Customs κ σ}
    (hspares : customs.Spares event ∨ ∀ e node, P e → P { e with current := node }) (depth : Nat)
    (run : κ) (occasion : Occasion) :
    Keeps (Attends event P document n) (customs.handle depth run occasion) := by
  induction depth generalizing run occasion with
  | zero => exact .throw _
  | succ depth ih =>
    have hconduct : (customs run occasion).Spares event ∨
        ∀ e node, P e → P { e with current := node } := hspares.imp_left fun h => h run occasion
    exact .bind (.modify fun w h => { h with }) fun _ => attends_run hstop ih hconduct

end Run

end BoundView
