import BoundView.Proofs.World.Durable

/-!
# Attending an event

While an event travels in a document, its listeners may do what they like, and there is little that they
can do to it: it stays in its table with its type and its target, the document loses no node, and it is
given another current node only by being dispatched. A world **attends** an event when the event is there
and is of some kind, and when the document has at least so many nodes.

Main statement: `durable_attends`.
-/

namespace BoundView.World

open BoundView.Dom (Document NodeId)

variable {κ σ : Type} {w : World κ σ}

/-- **A world that attends an event** which travels in a document. -/
structure Attends (event : EventId) (P : Event → Prop) (document : DocumentId) (n : Nat)
    (w : World κ σ) : Prop where
  there : ∃ e, w.events[event]? = some e ∧ P e
  document_lt : document < w.documents.size
  size : n ≤ (w.document document).size

namespace Attends

variable {event : EventId} {P Q : Event → Prop} {document : DocumentId} {n : Nat}

theorem event_lt (h : w.Attends event P document n) : event < w.events.size := by
  obtain ⟨e, he, _⟩ := h.there
  exact (Array.getElem?_eq_some_iff.mp he).1

/-- What is read of the event. -/
theorem read (h : w.Attends event P document n) : P (w.event event) := by
  obtain ⟨e, he, hP⟩ := h.there
  rw [event_of_getElem? he]
  exact hP

theorem mono (h : w.Attends event P document n) (hPQ : ∀ e, P e → Q e) :
    w.Attends event Q document n := by
  obtain ⟨e, he, hP⟩ := h.there
  exact { h with there := ⟨e, he, hPQ e hP⟩ }

/-- An event is changed. -/
theorem modifyEvent (h : w.Attends event P document n) {other : EventId} {f : Event → Event}
    (hf : other = event → ∀ e, P e → Q (f e)) (hPQ : other ≠ event → ∀ e, P e → Q e) :
    (w.modifyEvent other f).Attends event Q document n := by
  obtain ⟨e, he, hP⟩ := h.there
  have hread := w.getElem?_events_modifyEvent other event f
  refine { h with there := ?_ }
  by_cases hother : other = event
  · exact ⟨f e, by rw [hread, if_pos hother, he, Option.map_some], hf hother e hP⟩
  · exact ⟨e, by rw [hread, if_neg hother, he], hPQ hother e hP⟩

theorem addEvent (h : w.Attends event P document n) (e : Event) :
    (w.addEvent e).Attends event P document n := by
  obtain ⟨e', he, hP⟩ := h.there
  refine { h with there := ⟨e', ?_, hP⟩ }
  exact (Array.getElem?_push_lt h.event_lt).trans ((Array.getElem?_eq_getElem h.event_lt).symm.trans he)

theorem pushDocument (h : w.Attends event P document n) (d : Document (Action κ)) :
    ({ w with documents := w.documents.push d } : World κ σ).Attends event P document n := by
  have hread : ({ w with documents := w.documents.push d } : World κ σ).document document =
      w.document document := by
    unfold World.document
    dsimp only
    rw [Array.getD_eq_getD_getElem?, Array.getElem?_push_lt h.document_lt,
      Array.getD_eq_getD_getElem?, Array.getElem?_eq_getElem h.document_lt]
  refine { h with document_lt := ?_, size := ?_ }
  · rw [Array.size_push]
    exact Nat.lt_succ_of_lt h.document_lt
  · rw [hread]
    exact h.size

/-- A document does not shrink. -/
theorem setDocument (h : w.Attends event P document n) {id : DocumentId} {d : Document (Action κ)}
    (hsize : (w.document id).size ≤ d.size) : (w.setDocument id d).Attends event P document n := by
  refine { h with document_lt := ?_, size := ?_ }
  · exact Nat.lt_of_lt_of_eq h.document_lt Array.size_setIfInBounds.symm
  · by_cases hid : document = id
    · subst hid
      rw [document_setDocument h.document_lt]
      exact Nat.le_trans h.size hsize
    · rw [document_setDocument_of_ne hid]
      exact h.size

end Attends

/-- **To attend an event is durable**, if it is not spoken of whether the event was stopped, and if no
other dispatch of the event may be begun or it is not spoken of its current node either. -/
theorem durable_attends {event : EventId} {P : Event → Prop} {document : DocumentId} {n : Nat}
    {free : EventId → Prop} (hstop : ∀ e, P e → P { e with stopped := true })
    (hpass : free event → ∀ e node, P e → P { e with current := node })
    (hfree : ∀ other, event < other → free other) :
    Durable (fun w : World κ σ => w.Attends event P document n) ⟨free, fun _ => True, False⟩ where
  withTraces _ h := { h with }
  withCells _ h := { h with }
  withSubscribers _ h := { h with }
  addEvent e h := ⟨h.addEvent e, hfree _ h.event_lt⟩
  stop _ h := h.modifyEvent (fun _ => hstop) fun _ _ hP => hP
  pass node hother h :=
    h.modifyEvent (fun heq e hP => hpass (heq ▸ hother) e node hP) fun _ _ hP => hP
  pushDocument _ h := h.pushDocument _
  setDocument h hgrows _ := h.setDocument hgrows.size
  pushComponent _ h := ⟨{ h with }, trivial⟩
  modifyComponent _ _ _ h := { h with }
  render _ _ h := { h with }

end BoundView.World
