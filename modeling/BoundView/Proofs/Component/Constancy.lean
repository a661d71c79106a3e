import BoundView.Proofs.Component.Lasting
import BoundView.Proofs.World.Charter

/-!
# User code keeps charters

Charters are durable, so every computation keeps them that may run handlers which do. By recursion on the
depth to which handlers are nested, and on what each of them asks for, so does all user code: a component
is still what it was made from, whatever handlers do meanwhile, and each of them finds it so.

Main statements: `keeps_run`, `keeps_handle`.
-/

namespace BoundView

open BoundView.World (Honors)

variable {κ σ : Type}

/-- **User code all of whose demands are lawful.** -/
def Conduct.Lawful {κ σ : Type} : Conduct κ σ → Prop
  | .done | .fail _ => True
  | .look next => ∀ w, (next w).Lawful
  | .note _ next => next.Lawful
  | .ask demand next => demand.Lawful ∧ ∀ fault, (next fault).Lawful

/-- **Handlers all of which are lawful.** -/
def Customs.Lawful {κ σ : Type} (customs : Customs κ σ) : Prop :=
  ∀ run occasion, (customs run occasion).Lawful

/-! ## Diaries -/

/-- **The worlds that user code has found since** the diary was another. -/
def Diary.since (diary before : Diary κ σ) : List (World κ σ) :=
  diary.entered.drop before.entered.length ++ diary.returned.drop before.returned.length

/-- A diary goes on from another, and all worlds that were found since then have a property. -/
structure Diary.Follows (before : Diary κ σ) (P : World κ σ → Prop) (diary : Diary κ σ) : Prop where
  entered : before.entered.length ≤ diary.entered.length
  returned : before.returned.length ≤ diary.returned.length
  found : ∀ v ∈ diary.since before, P v

namespace Diary.Follows

variable {before diary : Diary κ σ} {P : World κ σ → Prop}

theorem refl (diary : Diary κ σ) (P : World κ σ → Prop) : diary.Follows P diary where
  entered := Nat.le_refl _
  returned := Nat.le_refl _
  found v hv := by
    unfold since at hv
    rw [List.drop_length, List.drop_length] at hv
    cases hv

theorem withOwn (h : before.Follows P diary) (own : σ) : before.Follows P { diary with own } where
  entered := h.entered
  returned := h.returned
  found := h.found

theorem noteEntry (h : before.Follows P diary) {v : World κ σ} (hv : P v) :
    before.Follows P { diary with entered := diary.entered ++ [v] } where
  entered := by
    rw [List.length_append]
    exact Nat.le_add_right_of_le h.entered
  returned := h.returned
  found u hu := by
    unfold since at hu
    dsimp only at hu
    rw [List.drop_append_of_le_length h.entered, List.append_assoc, List.mem_append,
      List.mem_append, List.mem_singleton] at hu
    rcases hu with hu | rfl | hu
    · exact h.found u (List.mem_append_left _ hu)
    · exact hv
    · exact h.found u (List.mem_append_right _ hu)

theorem noteReturn (h : before.Follows P diary) {v : World κ σ} (hv : P v) :
    before.Follows P { diary with returned := diary.returned ++ [v] } where
  entered := h.entered
  returned := by
    rw [List.length_append]
    exact Nat.le_add_right_of_le h.returned
  found u hu := by
    unfold since at hu
    dsimp only at hu
    rw [List.drop_append_of_le_length h.returned, List.mem_append, List.mem_append,
      List.mem_singleton] at hu
    rcases hu with hu | hu | rfl
    · exact h.found u (List.mem_append_left _ hu)
    · exact h.found u (List.mem_append_right _ hu)
    · exact hv

end Diary.Follows

/-! ## User code -/

variable {claims : List (Claim κ)} {before : Diary κ σ}

theorem World.Honors.seen {note : Diary κ σ → Prop} {w : World κ (Diary κ σ)}
    (h : w.Honors note claims) : w.seen.Honors (fun _ => True) claims :=
  { h with noted := trivial, met := fun c hc => { h.met c hc with } }

namespace Run

/-- **Lawful user code keeps charters**, and finds only worlds that honor them. -/
theorem keeps_run {handle : Handle κ (Diary κ σ)}
    (hhandle : ∀ run occasion,
      Keeps (Honors (before.Follows (Honors (fun _ => True) claims)) claims)
        (handle run occasion)) {conduct : Conduct κ σ} (hlawful : conduct.Lawful) :
    Keeps (Honors (before.Follows (Honors (fun _ => True) claims)) claims)
      (conduct.run handle) := by
  induction conduct with
  | done => exact .pure _
  | fail f => exact .throw f
  | look next ih => exact .get_bind fun w _ => ih w.seen (hlawful w.seen)
  | note change next ih =>
    exact .bind (.modify fun w h => h.modifyHost _ fun hnoted => hnoted.withOwn _) fun _ =>
      ih hlawful
  | ask demand next ih =>
    have hdemand := keeps_perform (World.durable_honors _ claims) hhandle
      (fun _ _ _ => trivial) fun _ => hlawful.1
    refine .bind hdemand.caught fun fault => ?_
    refine .bind (.modify fun w h => ?_) fun _ => ih fault (hlawful.2 fault)
    exact h.modifyHost _ fun hnoted => hnoted.noteReturn h.seen

/-- **Running lawful handlers** does so at every depth. -/
theorem keeps_handle {customs : Customs κ σ} (hcustoms : customs.Lawful) (depth : Nat) (run : κ)
    (occasion : Occasion) :
    Keeps (Honors (before.Follows (Honors (fun _ => True) claims)) claims)
      (customs.handle depth run occasion) := by
  induction depth generalizing run occasion with
  | zero => exact .throw _
  | succ depth ih =>
    refine .bind (.modify fun w h => ?_) fun _ => keeps_run ih (hcustoms run occasion)
    exact h.modifyHost _ fun hnoted => hnoted.noteEntry h.seen

end Run

end BoundView
