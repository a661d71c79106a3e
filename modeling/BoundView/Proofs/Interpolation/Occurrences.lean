import BoundView.Interpolation.Marker
import BoundView.Proofs.Text.Slice

/-!
# Where markers stand

A marker **stands** in a text wherever its form does: two opening braces, a run without braces, two
closing braces, at any place whatever comes before and after it. Reading from the left finds each of
these places, although it never looks back: no marker can begin inside of another, since two opening
braces in a row are found in a marker only at its beginning. So a marker that was read hides none, and
what is read as plain characters begins none.

Main statement: `scan_exact`.
-/

namespace BoundView.Text

/-- The bytes of a list of characters are those of the string that it makes. -/
theorem bytes_eq_utf8ByteSize (cs : List Char) : bytes cs = (String.ofList cs).utf8ByteSize := by
  induction cs with
  | nil => rfl
  | cons c cs ih =>
    rw [bytes_cons, ih, ← List.singleton_append, String.ofList_append, String.utf8ByteSize_append,
      ← String.singleton_eq_ofList, String.utf8ByteSize_singleton]

theorem bytes_toList (s : String) : bytes s.toList = s.utf8ByteSize := by
  rw [bytes_eq_utf8ByteSize, String.ofList_toList]

end BoundView.Text

namespace BoundView.Interpolation

open BoundView.Text

/-- The form of a marker. -/
def Marker.form (m : Marker) : String := "\x7b\x7b" ++ m.inner ++ "\x7d\x7d"

/-- **A marker stands in a text**: its form is found between what comes before and what comes after,
and it covers the bytes of this place. -/
def Marker.StandsIn (m : Marker) (text : String) : Prop :=
  ∃ before after : String, text = before ++ m.form ++ after ∧
    (∀ c ∈ m.inner.toList, c ≠ '{' ∧ c ≠ '}') ∧
    m.start = before.utf8ByteSize ∧ m.stop = (before ++ m.form).utf8ByteSize

/-! ## Markers do not begin inside of one another -/

theorem isBrace_eq_false_iff {c : Char} : isBrace c = false ↔ c ≠ '{' ∧ c ≠ '}' := by
  simp [isBrace]

/-- **Two opening braces in a row** stand in a marker only at its beginning: a text that begins with a
marker and is cut before two opening braces is cut behind the marker, if not in front of it. -/
theorem source_prefix_of_opening {inner rest before tail : List Char}
    (hinner : ∀ c ∈ inner, isBrace c = false)
    (h : (Piece.marker inner).source ++ rest = before ++ '{' :: '{' :: tail) (hne : before ≠ []) :
    ∃ mid, before = (Piece.marker inner).source ++ mid ∧ rest = mid ++ '{' :: '{' :: tail := by
  rcases List.append_eq_append_iff.mp h with hbehind | ⟨cut, hsource, hcut⟩
  · exact hbehind
  have hclosing : '{' ∉ inner ++ ['}', '}'] := by
    intro hmem
    rcases List.mem_append.mp hmem with hmem | hmem
    · exact (isBrace_eq_false_iff.mp (hinner _ hmem)).1 rfl
    · simp at hmem
  cases cut with
  | nil => exact ⟨[], by rw [hsource, List.append_nil, List.append_nil], hcut.symm⟩
  | cons c cut =>
    -- The cut is inside of the marker, behind its first brace.
    obtain ⟨rfl, htail⟩ := List.cons.inj hcut
    obtain ⟨first, before, rfl⟩ := List.exists_cons_of_ne_nil hne
    have hinside : '{' :: (inner ++ ['}', '}']) = before ++ '{' :: cut := (List.cons.inj hsource).2
    cases before with
    | cons second before =>
      have hrun : inner ++ ['}', '}'] = before ++ '{' :: cut := (List.cons.inj hinside).2
      rw [hrun] at hclosing
      exact absurd (List.mem_append_right _ List.mem_cons_self) hclosing
    | nil =>
      -- Then the run begins with another opening brace.
      have hrun : inner ++ ['}', '}'] = cut := (List.cons.inj hinside).2
      rw [← hrun] at htail
      cases inner with
      | nil => cases htail
      | cons next inner =>
        have hnext : '{' = next := (List.cons.inj htail).1
        exact absurd (hnext ▸ List.mem_cons_self) hclosing

/-! ## Reading from the left -/

/-- The marker that stands behind some characters of a text, which begins at the given byte. -/
def markerAt (start : Nat) (before inner : List Char) : Marker where
  start := start + bytes before
  stop := start + bytes before + bytes (Piece.marker inner).source
  inner := String.ofList inner

/-- **The markers that are read are those that stand in the text.** -/
theorem mem_markersFrom_iff {start : Nat} {cs : List Char} {m : Marker} :
    m ∈ markersFrom start (pieces cs) ↔
      ∃ before inner after, cs = before ++ ((Piece.marker inner).source ++ after) ∧
        (∀ c ∈ inner, isBrace c = false) ∧ m = markerAt start before inner := by
  fun_induction pieces cs generalizing start with
  | case1 cs run rest hread _ ih =>
    obtain ⟨rfl, hrun⟩ := eq_source_of_marker? hread
    simp only [markersFrom, List.mem_cons, ih]
    constructor
    · rintro (rfl | ⟨before, inner, after, rfl, hinner, rfl⟩)
      · exact ⟨[], run, rest, rfl, hrun, rfl⟩
      · refine ⟨(Piece.marker run).source ++ before, inner, after, by simp, hinner, ?_⟩
        simp [markerAt, Nat.add_assoc]
    · rintro ⟨before, inner, after, hcs, hinner, rfl⟩
      by_cases hbefore : before = []
      · -- Where one marker begins there is only one.
        subst hbefore
        rw [marker?_eq_some_iff.mpr ⟨hcs, hinner⟩] at hread
        cases hread
        exact .inl rfl
      · obtain ⟨mid, rfl, hrest⟩ := source_prefix_of_opening hrun hcs hbefore
        refine .inr ⟨mid, inner, after, hrest, hinner, ?_⟩
        simp [markerAt, Nat.add_assoc]
  | case2 =>
    constructor
    · intro hm
      cases hm
    · rintro ⟨before, inner, after, hnil, _⟩
      simp [Piece.source] at hnil
  | case3 c rest hnone ih =>
    simp only [markersFrom, ih]
    constructor
    · rintro ⟨before, inner, after, rfl, hinner, rfl⟩
      exact ⟨c :: before, inner, after, rfl, hinner, by simp [markerAt, Nat.add_assoc]⟩
    · rintro ⟨before, inner, after, hcs, hinner, rfl⟩
      cases before with
      | nil =>
        rw [marker?_eq_some_iff.mpr ⟨hcs, hinner⟩] at hnone
        cases hnone
      | cons b before =>
        obtain ⟨rfl, rfl⟩ := List.cons.inj hcs
        exact ⟨before, inner, after, rfl, hinner, by simp [markerAt, Nat.add_assoc]⟩

/-- A marker is not read before the place where reading begins. -/
theorem start_le_of_mem_markersFrom {start : Nat} {ps : List Piece} {m : Marker}
    (hm : m ∈ markersFrom start ps) : start ≤ m.start := by
  induction ps generalizing start with
  | nil => cases hm
  | cons p ps ih =>
    cases p with
    | char c => exact Nat.le_trans (Nat.le_add_right _ _) (ih hm)
    | marker inner =>
      rcases List.mem_cons.mp hm with rfl | hm
      · exact Nat.le_refl _
      · exact Nat.le_trans (Nat.le_add_right _ _) (ih hm)

/-- **Markers are read one behind the other.** -/
theorem pairwise_markersFrom (start : Nat) (ps : List Piece) :
    (markersFrom start ps).Pairwise fun m m' => m.stop ≤ m'.start := by
  induction ps generalizing start with
  | nil => exact List.Pairwise.nil
  | cons p ps ih =>
    cases p with
    | char c => exact ih _
    | marker inner =>
      exact List.pairwise_cons.mpr ⟨fun m hm => start_le_of_mem_markersFrom hm, ih _⟩

/-! ## Markers of strings -/

theorem Marker.toList_form (m : Marker) : m.form.toList = (Piece.marker m.inner.toList).source := by
  simp [Marker.form, String.toList_append, Piece.source]

theorem Marker.standsIn_iff {m : Marker} {text : String} :
    m.StandsIn text ↔
      ∃ before inner after, text.toList = before ++ ((Piece.marker inner).source ++ after) ∧
        (∀ c ∈ inner, isBrace c = false) ∧ m = markerAt 0 before inner := by
  constructor
  · rintro ⟨before, after, rfl, hinner, hstart, hstop⟩
    refine ⟨before.toList, m.inner.toList, after.toList, ?_, ?_, ?_⟩
    · rw [String.toList_append, String.toList_append, m.toList_form, List.append_assoc]
    · exact fun c hc => isBrace_eq_false_iff.mpr (hinner c hc)
    · rw [← bytes_toList] at hstart hstop
      rw [String.toList_append, m.toList_form, bytes_append] at hstop
      unfold markerAt
      rw [Nat.zero_add, ← hstop, ← hstart, String.ofList_toList]
  · rintro ⟨before, inner, after, htext, hinner, rfl⟩
    have hform : (markerAt 0 before inner).form.toList = (Piece.marker inner).source := by
      rw [Marker.toList_form, markerAt, String.toList_ofList]
    refine ⟨String.ofList before, String.ofList after, ?_, ?_, ?_, ?_⟩
    · apply String.toList_injective
      rw [String.toList_append, String.toList_append, hform, htext, String.toList_ofList,
        String.toList_ofList, List.append_assoc]
    · intro c hc
      rw [markerAt, String.toList_ofList] at hc
      exact isBrace_eq_false_iff.mp (hinner c hc)
    · rw [← bytes_eq_utf8ByteSize]
      exact Nat.zero_add _
    · rw [← bytes_toList, String.toList_append, hform, bytes_append, String.toList_ofList]
      exact congrArg (· + _) (Nat.zero_add _)

/-- **A marker lies between characters**: it begins and ends where its text can be cut, and it covers
its form. -/
structure Marker.Covers (m : Marker) (text : String) : Prop where
  start_lt_stop : m.start < m.stop
  start_valid : (⟨m.start⟩ : String.Pos.Raw).IsValid text
  stop_valid : (⟨m.stop⟩ : String.Pos.Raw).IsValid text
  form : slice? text.toList m.start m.stop = some m.form.toList

theorem Marker.StandsIn.covers {m : Marker} {text : String} (h : m.StandsIn text) :
    m.Covers text := by
  obtain ⟨before, after, rfl, -, hstart, hstop⟩ := h
  have hlength : m.stop = m.start + m.form.utf8ByteSize := by
    rw [hstop, hstart, String.utf8ByteSize_append]
  have hsplit : before ++ m.form ++ after = before ++ (m.form ++ after) := String.append_assoc
  refine ⟨?_, ?_, ?_, ?_⟩
  · rw [hlength, Marker.form, String.utf8ByteSize_append, String.utf8ByteSize_append]
    exact Nat.lt_add_of_pos_right (Nat.add_pos_right _ (by decide))
  · exact String.Pos.Raw.isValid_iff_exists_append.mpr
      ⟨_, _, hsplit, congrArg String.Pos.Raw.mk hstart⟩
  · exact String.Pos.Raw.isValid_iff_exists_append.mpr
      ⟨_, _, rfl, congrArg String.Pos.Raw.mk hstop⟩
  · rw [hlength, hstart, ← bytes_toList, ← bytes_toList, hsplit, String.toList_append,
      String.toList_append]
    exact slice?_append _ _ _

theorem mem_scan_iff {text : String} {m : Marker} : m ∈ scan text ↔ m.StandsIn text :=
  mem_markersFrom_iff.trans Marker.standsIn_iff.symm

theorem covers_of_mem_scan {text : String} {m : Marker} (hm : m ∈ scan text) : m.Covers text :=
  (mem_scan_iff.mp hm).covers

/-- **Scanning finds all markers and nothing else.** What is read is what stands in the text, wherever
it stands; one marker ends before the next begins, so each is found once and they come in order; and
each begins and ends between two characters. -/
theorem scan_exact (text : String) :
    (∀ m, m ∈ scan text ↔ m.StandsIn text) ∧
      (scan text).Pairwise (fun m m' => m.stop ≤ m'.start) ∧ (scan text).Nodup ∧
      ∀ m ∈ scan text, m.Covers text := by
  have hordered : (scan text).Pairwise fun m m' => m.stop ≤ m'.start := pairwise_markersFrom 0 _
  refine ⟨fun _ => mem_scan_iff, hordered, ?_, fun _ => covers_of_mem_scan⟩
  refine hordered.imp_of_mem fun {m m'} hm _ hbehind heq => ?_
  have hlt := (covers_of_mem_scan hm).start_lt_stop
  rw [heq] at hlt hbehind
  exact absurd hlt (Nat.not_lt_of_le hbehind)

example : scan "\x7b\x7b\x7bé\x7d\x7d\x7b\x7ba\x7db\x7d\x7d" = [⟨1, 7, "é"⟩] := by decide +kernel

end BoundView.Interpolation
