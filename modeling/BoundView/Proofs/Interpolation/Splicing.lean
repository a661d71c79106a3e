import BoundView.Interpolation.Resolve
import BoundView.Proofs.Interpolation.Occurrences

/-!
# Resolving is splicing

A resolution asks for the keys of its text, one after the other as they stand there, and then puts the
answers together (`answered`). Putting them together is a **splice**: what stands between two markers is
copied byte by byte from the text, and between these copies comes what stands for each marker, which is
not looked at again.

So a resolution depends on nothing but the answers for the keys of its text, and where nothing is known
and markers are kept as they are written, it gives back the text.

Main statements: `resolveM_eq`, `splice_answered`, `resolution_splices`.
-/

namespace BoundView.Interpolation

open BoundView.Text

/-! ## Splices -/

/-- What stands for a marker of a text, once its key was asked for: the answer, or else what the policy
says. -/
def standIn (policy : MissingKey) (text : List Char) (m : Marker) : Option String → Option (List Char)
  | some value => some value.toList
  | none =>
    match policy with
    | .empty => some []
    | .undefined => some "undefined".toList
    | .literal => slice? text m.start m.stop

/-- **A splice**: what a text holds from a byte on, with the answers for markers in their places. The
text is copied in slices; `none` if one of them does not lie between characters of the text. -/
def splice (policy : MissingKey) (text : List Char) (copied : Nat) :
    List (Marker × Option String) → Option (List Char)
  | [] => from? text copied
  | (m, answer) :: rest => do
    let between ← slice? text copied m.start
    let fill ← standIn policy text m answer
    let later ← splice policy text m.stop rest
    pure (between ++ fill ++ later)

/-! ## Answers -/

/-- Puts pieces together, with one answer for each marker. -/
def assemble (policy : MissingKey) : List Piece → List (Option String) → Resolution
  | [], _ => ⟨[], []⟩
  | .char c :: ps, answers => (assemble policy ps answers).withChar c
  | .marker inner :: ps, answers =>
    (assemble policy ps answers.tail).withMarker policy inner (answers.head?.getD none)

/-- **The resolution that answers lead to**: one answer for each key of the text, in order. -/
def answered (policy : MissingKey) (text : String) (answers : List (Option String)) : Resolution :=
  assemble policy (pieces text.toList) answers

variable (policy : MissingKey)

/-- **All keys are asked for in order**, one for each marker, before anything is put together. -/
theorem resolveM_eq {m : Type → Type} [Monad m] [LawfulMonad m] (ask : String → m (Option String))
    (text : String) :
    resolveM ask policy text = answered policy text <$> (keys text).mapM ask := by
  rw [keys_eq]
  unfold resolveM answered
  induction pieces text.toList with
  | nil => simp [resolvePiecesM, keysOf, assemble]
  | cons p ps ih =>
    cases p with
    | char c =>
      have hkeys : keysOf (.char c :: ps) = keysOf ps := rfl
      rw [resolvePiecesM, ih, hkeys]
      simp [assemble]
    | marker inner =>
      have hkeys : keysOf (.marker inner :: ps) = keyOf inner :: keysOf ps := rfl
      rw [resolvePiecesM, ih, hkeys]
      simp [assemble]

/-- A lookup without effects answers for each key. -/
theorem resolve_eq (lookup : Lookup) (text : String) :
    resolve lookup policy text = answered policy text ((keys text).map lookup) := by
  rw [resolve_eq_resolveM, resolveM_eq]
  simp

/-! ## Putting the answers together -/

/-- **The keys without an answer are reported**, in order. -/
theorem missing_assemble {ps : List Piece} {answers : List (Option String)}
    (h : answers.length = (keysOf ps).length) :
    (assemble policy ps answers).missing =
      (((keysOf ps).zip answers).filter (·.2.isNone)).map Prod.fst := by
  induction ps generalizing answers with
  | nil => rfl
  | cons p ps ih =>
    cases p with
    | char c => exact ih h
    | marker inner =>
      have hkeys : keysOf (.marker inner :: ps) = keyOf inner :: keysOf ps := rfl
      rw [hkeys] at h ⊢
      obtain ⟨answer, answers, rfl⟩ := List.exists_cons_of_length_eq_add_one h
      have hrest := ih (Nat.succ.inj h)
      cases answer with
      | none => simp [assemble, Resolution.withMarker, hrest]
      | some value => simp [assemble, Resolution.withMarker, hrest]

/-- **What stands for the marker at a place of a text** comes in front there. -/
theorem standIn_eq {text before inner after : List Char}
    (htext : text = before ++ ((Piece.marker inner).source ++ after)) (answer : Option String)
    (r : Resolution) :
    ∃ fill, standIn policy text (markerAt 0 before inner) answer = some fill ∧
      (r.withMarker policy inner answer).text = fill ++ r.text := by
  cases answer with
  | some value => exact ⟨value.toList, rfl, rfl⟩
  | none =>
    refine ⟨policy.fill inner, ?_, rfl⟩
    cases policy with
    | empty => rfl
    | undefined => rfl
    | literal =>
      unfold standIn markerAt
      rw [Nat.zero_add, htext]
      exact slice?_append before (Piece.marker inner).source after

theorem markersFrom_marker (before inner : List Char) (ps : List Piece) :
    markersFrom (bytes before) (.marker inner :: ps) =
      markerAt 0 before inner :: markersFrom (markerAt 0 before inner).stop ps := by
  rw [markersFrom, markerAt, Nat.zero_add]

/-- **Putting the pieces of a text together is a splice.** Some characters of the text were copied
already, and some plain ones are read but still to be copied. -/
theorem splice_assemble {text : List Char} {ps : List Piece} {answers : List (Option String)}
    (copied plain : List Char) (htext : text = copied ++ (plain ++ ps.flatMap Piece.source))
    (h : answers.length = (keysOf ps).length) :
    splice policy text (bytes copied) ((markersFrom (bytes (copied ++ plain)) ps).zip answers) =
      some (plain ++ (assemble policy ps answers).text) := by
  induction ps generalizing answers copied plain with
  | nil =>
    rw [htext]
    exact from?_append copied (plain ++ [])
  | cons p ps ih =>
    rw [List.flatMap_cons] at htext
    cases p with
    | char c =>
      -- The character joins the plain ones.
      have hplain : bytes (copied ++ (plain ++ [c])) = bytes (copied ++ plain) + c.utf8Size := by
        rw [← List.append_assoc, bytes_append, bytes_cons, bytes_nil, Nat.add_zero]
      have hnext := ih copied (plain ++ [c]) (htext.trans (by simp [Piece.source])) h
      rw [hplain, List.append_assoc] at hnext
      exact hnext
    | marker inner =>
      have hkeys : keysOf (.marker inner :: ps) = keyOf inner :: keysOf ps := rfl
      rw [hkeys] at h
      obtain ⟨answer, answers, rfl⟩ := List.exists_cons_of_length_eq_add_one h
      have hbetween : slice? text (bytes copied) (markerAt 0 (copied ++ plain) inner).start =
          some plain := by
        rw [htext, markerAt, Nat.zero_add, bytes_append]
        exact slice?_append copied plain _
      rw [← List.append_assoc] at htext
      obtain ⟨fill, hfill, hassembled⟩ :=
        standIn_eq policy htext answer (assemble policy ps answers)
      -- Behind the marker everything up to there was copied.
      have hstop : (markerAt 0 (copied ++ plain) inner).stop =
          bytes (copied ++ plain ++ (Piece.marker inner).source) := by
        rw [markerAt, Nat.zero_add, ← bytes_append]
      have hlater := ih (copied ++ plain ++ (Piece.marker inner).source) []
        (htext.trans (List.append_assoc _ _ _).symm) (Nat.succ.inj h)
      rw [List.append_nil, ← hstop] at hlater
      rw [markersFrom_marker, List.zip_cons_cons, splice, hbetween, hfill, hlater]
      show some (plain ++ fill ++ _) = some (plain ++ (Resolution.withMarker policy inner answer _).text)
      rw [List.tail_cons, hassembled, List.nil_append, List.append_assoc]

/-- **What a resolution holds is a splice of its text**: each marker gives way to the answer for its
key, and everything else is copied. -/
theorem splice_answered {text : String} {answers : List (Option String)}
    (h : answers.length = (keys text).length) :
    splice policy text.toList 0 ((scan text).zip answers) =
      some (answered policy text answers).text := by
  rw [keys_eq] at h
  exact splice_assemble policy [] [] (flatMap_source_pieces text.toList).symm h

/-! ## What a resolution depends on -/

/-- **A resolution reports the keys without an answer**, in order. -/
theorem missing_resolve (lookup : Lookup) (text : String) :
    (resolve lookup policy text).missing = (keys text).filter fun key => (lookup key).isNone := by
  have hlength : ((keys text).map lookup).length = (keysOf (pieces text.toList)).length := by
    rw [List.length_map, keys_eq]
  rw [resolve_eq, answered, missing_assemble policy hlength, ← keys_eq, ← List.map_prod_left_eq_zip,
    List.filter_map, List.map_map]
  exact List.map_id _

/-- **Two lookups that agree on the keys of a text resolve it in the same way.** -/
theorem resolve_congr {lookup lookup' : Lookup} {text : String}
    (h : ∀ key ∈ keys text, lookup' key = lookup key) :
    resolve lookup' policy text = resolve lookup policy text := by
  rw [resolve_eq, resolve_eq, List.map_congr_left h]

theorem resolvedText_congr {lookup lookup' : Lookup} {text : String}
    (h : ∀ key ∈ keys text, lookup' key = lookup key) :
    resolvedText lookup' policy text = resolvedText lookup policy text := by
  unfold resolvedText
  rw [resolve_congr policy h]

/-- **Markers that are kept as they are written** leave the text as it is. -/
theorem resolve_literal (text : String) :
    resolve (fun _ => none) .literal text = ⟨text.toList, keys text⟩ := by
  have hpieces : ∀ ps : List Piece,
      resolvePieces (fun _ => none) .literal ps = ⟨ps.flatMap Piece.source, keysOf ps⟩ := by
    intro ps
    induction ps with
    | nil => rfl
    | cons p ps ih =>
      cases p with
      | char c =>
        rw [resolvePieces, ih]
        rfl
      | marker inner =>
        rw [resolvePieces, ih]
        rfl
  rw [resolve, hpieces, flatMap_source_pieces, keys_eq]

/-- **Resolving is one splice over the markers of a text.** A lookup is asked for the keys of the text
and for nothing else, in order; from its answers follows the result, which is the text with what stands
for each marker in its place, and the list of the keys without an answer. So lookups that agree on these
keys lead to the same, and a lookup that knows none of them to the text itself if markers are kept. -/
theorem resolution_splices (text : String) :
    (∀ {m : Type → Type} [Monad m] [LawfulMonad m] (ask : String → m (Option String)),
      resolveM ask policy text = answered policy text <$> (keys text).mapM ask) ∧
    (∀ answers : List (Option String), answers.length = (keys text).length →
      splice policy text.toList 0 ((scan text).zip answers) =
          some (answered policy text answers).text ∧
        (answered policy text answers).missing =
          (((keys text).zip answers).filter (·.2.isNone)).map Prod.fst) ∧
    (∀ lookup, resolve lookup policy text = answered policy text ((keys text).map lookup)) ∧
    (∀ lookup lookup' : Lookup, (∀ key ∈ keys text, lookup' key = lookup key) →
      resolve lookup' policy text = resolve lookup policy text) ∧
    resolve (fun _ => none) .literal text = ⟨text.toList, keys text⟩ := by
  refine ⟨fun ask => resolveM_eq policy ask text, fun answers h => ⟨splice_answered policy h, ?_⟩,
    fun lookup => resolve_eq policy lookup text, fun _ _ => resolve_congr policy, resolve_literal text⟩
  rw [keys_eq] at h ⊢
  exact missing_assemble policy h

/-- A lookup that notes what it is asked for. -/
def noting (lookup : Lookup) (key : String) : StateM (List String) (Option String) := do
  modify (· ++ [key])
  pure (lookup key)

theorem resolution_splices_sample :
    let text := "\x7b\x7ba\x7d\x7d\x7bé\x7b\x7b b \x7d\x7d\x7b\x7ba\x7d\x7d"
    let lookup : Lookup := fun key => if key == "a" then some "\x7b\x7bb" else none
    Id.run ((resolveM (noting lookup) .literal text).run []) =
        (⟨"\x7b\x7bb\x7bé\x7b\x7b b \x7d\x7d\x7b\x7bb".toList, ["b"]⟩, ["a", "b", "a"]) ∧
      splice .undefined text.toList 0 ((scan text).zip [none, some "\x7d\x7d", none]) =
        some "undefined\x7bé\x7d\x7dundefined".toList ∧
      resolve (fun key => if key == "c" then some "" else lookup key) .empty text =
        resolve lookup .empty text := by
  intro text lookup
  refine ⟨?_, ?_, ?_⟩
  · rw [(resolution_splices .literal text).1]
    decide +kernel
  · rw [((resolution_splices .undefined text).2.1 _ (by decide +kernel)).1]
    decide +kernel
  · exact (resolution_splices .empty text).2.2.2.1 _ _ (by decide +kernel)

end BoundView.Interpolation
