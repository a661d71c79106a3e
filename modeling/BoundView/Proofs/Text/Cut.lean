import BoundView.Text.Cut

/-!
# Cuts at a known place

A reader that looks for a pattern finds it at the end of a text that does not hold it, when the
pattern can not begin inside the text and end inside itself. Such a pattern is **unbordered**: no
proper end of it is a beginning of it.

A reader that takes a run of one class stops where the class does.

Main statements: `cutAt?_eq`, `not_prefix_of_unbordered`, the reason why a cut comes no earlier, and
`not_infix_of_cutAt?`, what comes before a cut does not hold the pattern; `span_run` for runs.
-/

namespace BoundView.Text

variable {α : Type _}

/-- **The cut is where the condition holds for the first time.** -/
theorem cutAt?_eq {stop : List α → Bool} {before after : List α} (hafter : stop after = true)
    (hfirst : ∀ v, v <:+ before → v ≠ [] → stop (v ++ after) = false) :
    cutAt? stop (before ++ after) = some (before, after) := by
  induction before with
  | nil => cases after <;> simp only [List.nil_append, cutAt?, hafter, if_true]
  | cons x xs ih =>
    have hx : stop (x :: (xs ++ after)) = false := hfirst _ (List.suffix_refl _) (List.cons_ne_nil x xs)
    have hxs := ih fun v hv => hfirst v (hv.trans (List.suffix_cons x xs))
    rw [List.cons_append]
    unfold cutAt?
    rw [hx, hxs]
    rfl

/-- Nothing is cut where the condition never holds. -/
theorem cutAt?_eq_none {stop : List α → Bool} {xs : List α}
    (hnever : ∀ v, v <:+ xs → stop v = false) : cutAt? stop xs = none := by
  induction xs with
  | nil =>
    unfold cutAt?
    rw [hnever [] (List.suffix_refl _)]
    rfl
  | cons x xs ih =>
    unfold cutAt?
    rw [hnever _ (List.suffix_refl _), ih fun v hv => hnever v (hv.trans (List.suffix_cons x xs))]
    rfl

/-- **Unbordered**: no proper end of the pattern is a beginning of it. -/
def Unbordered (p : List α) : Prop := ∀ n, n < p.length → 0 < n → ¬ p.drop n <+: p

/-- **An unbordered pattern begins nowhere earlier** in a text that does not hold it. -/
theorem not_prefix_of_unbordered {p text v tail : List α} (hp : Unbordered p)
    (htext : ¬ p <:+: text) (hv : v <:+ text) (hne : v ≠ []) : ¬ p <+: v ++ (p ++ tail) := by
  rintro ⟨rest, hrest⟩
  rcases List.append_eq_append_iff.mp hrest with ⟨c, hc, _⟩ | ⟨c, hc, hcut⟩
  · -- The pattern ends before the text does.
    exact htext ((List.prefix_append p c).isInfix.trans (hc ▸ hv.isInfix))
  · have hlength : p.length = v.length + c.length := by rw [hc, List.length_append]
    have hvpos : 0 < v.length := List.length_pos_iff.mpr hne
    have hdrop : p.drop v.length = c := by
      rw [hc]
      exact List.drop_left
    rcases Nat.eq_zero_or_pos c.length with hnil | hcpos
    · rw [List.length_eq_zero_iff.mp hnil, List.append_nil] at hc
      exact htext (hc ▸ hv.isInfix)
    · -- What sticks out of the text begins the pattern.
      have hprefix : c <+: p := by
        refine List.prefix_of_prefix_length_le (List.prefix_append c rest) ?_ (by omega)
        rw [← hcut]
        exact List.prefix_append p tail
      exact hp v.length (by omega) hvpos (hdrop ▸ hprefix)

theorem startsWith_eq_true_iff [BEq α] [LawfulBEq α] {front xs : List α} :
    startsWith front xs = true ↔ front <+: xs := by
  unfold startsWith
  exact List.isPrefixOf_iff_prefix

/-- A text is cut before the first occurrence of an unbordered pattern. -/
theorem cutAt?_startsWith [BEq α] [LawfulBEq α] {p text : List α} (hp : Unbordered p)
    (htext : ¬ p <:+: text) (tail : List α) :
    cutAt? (startsWith p) (text ++ (p ++ tail)) = some (text, p ++ tail) := by
  refine cutAt?_eq (startsWith_eq_true_iff.mpr (List.prefix_append p tail)) ?_
  intro v hv hne
  rw [← Bool.not_eq_true, startsWith_eq_true_iff]
  exact not_prefix_of_unbordered hp htext hv hne

/-- **No pattern that the cut looks for is in front of it**, also when the elements are compared after
`f` is applied to them. -/
theorem not_infix_of_cutAt? {stop : List α → Bool} {xs before after p : List α} {f : α → α}
    (hcut : cutAt? stop xs = some (before, after)) (hp : p ≠ [])
    (hstop : ∀ ys, p <+: ys.map f → stop ys = true) : ¬ p <:+: before.map f := by
  rintro ⟨u, v, huv⟩
  rw [List.append_assoc] at huv
  obtain ⟨before', w, hbefore, -, hw⟩ := List.map_eq_append_iff.mp huv.symm
  have hfound : p <+: w.map f := hw ▸ List.prefix_append p v
  have hne : w ≠ [] := by
    rintro rfl
    exact hp (List.prefix_nil.mp hfound)
  have hfirst := cutAt?_first hcut before' w hbefore.symm hne
  rw [hstop (w ++ after)] at hfirst
  · cases hfirst
  · rw [List.map_append]
    exact hfound.trans (List.prefix_append _ _)

/-- A pattern of one element is unbordered. -/
theorem unbordered_singleton (x : α) : Unbordered [x] := by
  intro n hn hpos
  rw [List.length_singleton] at hn
  omega

/-- A pattern whose first element does not come again is unbordered. -/
theorem unbordered_cons {x : α} {xs : List α} (hx : x ∉ xs) : Unbordered (x :: xs) := by
  intro n hn hpos hprefix
  obtain ⟨m, rfl⟩ := Nat.exists_eq_succ_of_ne_zero (Nat.ne_of_gt hpos)
  rw [List.drop_succ_cons] at hprefix
  rw [List.length_cons] at hn
  cases hd : xs.drop m with
  | nil =>
    have := List.drop_eq_nil_iff.mp hd
    omega
  | cons y ys =>
    rw [hd] at hprefix
    have hy : y = x := (List.cons_prefix_cons.mp hprefix).1
    have hmem : y ∈ xs := List.mem_of_mem_drop (hd ▸ List.mem_cons_self)
    exact hx (hy ▸ hmem)

/-- **A run of one class ends where the class does.** -/
theorem span_run {p : α → Bool} {run rest : List α} (hrun : ∀ a ∈ run, p a = true)
    (hrest : ∀ a ∈ rest.head?, p a = false) :
    (run ++ rest).takeWhile p = run ∧ (run ++ rest).dropWhile p = rest := by
  rw [List.takeWhile_append_of_pos hrun, List.dropWhile_append_of_pos hrun]
  cases rest with
  | nil => exact ⟨List.append_nil run, rfl⟩
  | cons a rest =>
    have ha : ¬ p a = true := by simpa using hrest a rfl
    rw [List.takeWhile_cons_of_neg ha, List.dropWhile_cons_of_neg ha, List.append_nil]
    exact ⟨rfl, rfl⟩

end BoundView.Text
