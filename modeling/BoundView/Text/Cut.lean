/-!
# Cutting a text at its first match

A reader looks for the first place where something begins: a closing quote, `-->`, the next tag.
`cutAt? stop` finds the first suffix that satisfies `stop` and hands back both sides of the cut.

Main statements: `cutAt?_append` (nothing is lost), `cutAt?_stops` (the right side satisfies
`stop`), and `cutAt?_first` (no earlier suffix does).
-/

namespace BoundView.Text

variable {α : Type _}

/-- **The first cut** before a suffix that satisfies `stop`; `none` when no suffix does. -/
def cutAt? (stop : List α → Bool) : List α → Option (List α × List α)
  | [] => if stop [] then some ([], []) else none
  | x :: xs =>
    if stop (x :: xs) then some ([], x :: xs)
    else (cutAt? stop xs).map fun (before, after) => (x :: before, after)

/-- The first cut, or everything before an empty rest. -/
def cutAt (stop : List α → Bool) (xs : List α) : List α × List α :=
  (cutAt? stop xs).getD (xs, [])

/-- Whether a text begins with the given characters. -/
def startsWith [BEq α] (front : List α) (xs : List α) : Bool := front.isPrefixOf xs

/-- Nothing is lost by a cut. -/
theorem cutAt?_append {stop : List α → Bool} {xs before after : List α}
    (h : cutAt? stop xs = some (before, after)) : before ++ after = xs := by
  induction xs generalizing before with
  | nil => simp only [cutAt?] at h; split at h <;> simp_all
  | cons x xs ih =>
    simp only [cutAt?] at h
    split at h
    · simp_all
    · obtain ⟨⟨b, a⟩, hb, heq⟩ := Option.map_eq_some_iff.mp h
      cases heq
      simp [ih hb]

/-- The right side of a cut satisfies the condition. -/
theorem cutAt?_stops {stop : List α → Bool} {xs before after : List α}
    (h : cutAt? stop xs = some (before, after)) : stop after = true := by
  induction xs generalizing before with
  | nil => simp only [cutAt?] at h; split at h <;> simp_all
  | cons x xs ih =>
    simp only [cutAt?] at h
    split at h
    · simp_all
    · obtain ⟨⟨b, a⟩, hb, heq⟩ := Option.map_eq_some_iff.mp h
      cases heq
      exact ih hb

/-- No suffix that begins earlier satisfies the condition. -/
theorem cutAt?_first {stop : List α → Bool} {xs before after : List α}
    (h : cutAt? stop xs = some (before, after)) :
    ∀ u v, u ++ v = before → v ≠ [] → stop (v ++ after) = false := by
  induction xs generalizing before with
  | nil =>
    simp only [cutAt?] at h
    split at h <;> simp_all
  | cons x xs ih =>
    simp only [cutAt?] at h
    split at h
    · intro u v huv hv
      simp_all
    · rename_i hstop
      obtain ⟨⟨b, a⟩, hb, heq⟩ := Option.map_eq_some_iff.mp h
      cases heq
      intro u v huv hv
      cases u with
      | nil =>
        simp only [List.nil_append] at huv
        subst huv
        simpa [cutAt?_append hb] using hstop
      | cons y u =>
        simp only [List.cons_append, List.cons.injEq] at huv
        exact ih hb u v huv.2 hv

theorem cutAt_append (stop : List α → Bool) (xs : List α) :
    (cutAt stop xs).1 ++ (cutAt stop xs).2 = xs := by
  unfold cutAt
  cases h : cutAt? stop xs with
  | none => simp
  | some cut => exact cutAt?_append h

end BoundView.Text
