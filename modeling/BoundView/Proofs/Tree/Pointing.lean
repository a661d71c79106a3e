import BoundView.Proofs.Tree.Lockstep

/-!
# Where the errors of a parse point

The offset of an error is that of the `<` which begins the construct that does not end or does not fit,
or that of the opening quote of a value that does not end. A closing tag can be found not to fit only by
the builder; its token keeps the offset, so the statement is carried from the reader to the builder along
the tokens (`points_lex`, `points_run`).

Main statement: `Document.parse_safe`, the stepwise parse is refused on no document and no source, and
the error points into the source.
-/

namespace BoundView.Markup

open BoundView.Dom (Attributes Document attributes_eq construct_meets exists_of_startsMarkup next? read_eq)
open BoundView.Markup.Cursor (At)
open BoundView.Text (bytes from? lower startsWith)

/-- A `<` stands at this offset. -/
def OpensAt (source : List Char) (offset : Nat) : Prop :=
  ∃ rest, from? source offset = some ('<' :: rest)

/-- **Where an error points**: to the `<` of a construct, or to the opening quote of a value. -/
def Points (source : List Char) : Error → Prop
  | .unterminatedAttribute _ offset =>
    ∃ quote rest, (quote = '"' ∨ quote = '\'') ∧ from? source offset = some (quote :: rest)
  | e => OpensAt source e.offset

/-- Whatever stands at an offset, the offset is before the end of the source. -/
theorem Points.lt {source : List Char} {e : Error} (h : Points source e) : e.offset < bytes source := by
  have before : ∀ {first rest offset}, from? source offset = some (first :: rest) →
      offset < bytes source := by
    intro first rest offset hfrom
    obtain ⟨front, hsource, hoffset⟩ := Text.from?_eq_some_iff.mp hfrom
    have hpos := first.utf8Size_pos
    rw [← hsource, Text.bytes_append, Text.bytes_cons]
    omega
  cases e with
  | unterminatedAttribute name offset =>
    obtain ⟨quote, rest, _, hfrom⟩ := h
    exact before hfrom
  | _ =>
    obtain ⟨rest, hfrom⟩ := h
    exact before hfrom

variable {source : List Char} {c : Cursor}

theorem opensAt (h : At source c) {tail : List Char} (hrest : c.rest = '<' :: tail) :
    OpensAt source c.offset := ⟨tail, Eq.trans h (congrArg some hrest)⟩

/-! ## Attributes -/

/-- A value fails at its opening quote. -/
theorem points_readValue (h : At source c) {name : String} {e : Error}
    (hread : readValue name c = .error e) : Points source e := by
  have hstart : from? source c.skipBlank.offset = some c.skipBlank.rest := h.skipBlank
  simp only [readValue] at hread
  split at hread
  · cases hread
  · rename_i quote rest hrest
    split at hread
    · rename_i hquote
      split at hread
      · cases hread
      · cases hread
        exact ⟨quote, rest, hquote, hrest ▸ hstart⟩
    · cases hread

theorem points_readAttribute (h : At source c) {e : Error} (hread : readAttribute c = .error e) :
    Points source e := by
  have hnext := (h.takeWhile isAttributeNameChar).skipBlank
  simp only [readAttribute] at hread
  split at hread
  · cases hvalue : readValue (String.ofList (lower (c.takeWhile isAttributeNameChar).1))
        ((c.takeWhile isAttributeNameChar).2.skipBlank.drop 1) with
    | error e' =>
      rw [hvalue] at hread
      cases hread
      exact points_readValue (hnext.drop 1) hvalue
    | ok result =>
      rw [hvalue] at hread
      cases hread
  · cases hread

theorem points_readAttributes (h : At source c) {start : Nat} (hstart : OpensAt source start)
    {before after : Attributes} {e : Error}
    (hread : readAttributes start c before = (after, .error e)) : Points source e := by
  fun_induction readAttributes start c before with
  | case1 c before =>
    cases hread
    exact hstart
  | case2 => cases hread
  | case3 => cases hread
  | case4 c before ds hhead hrest hend hlt ih => exact ih (h.skipBlank.drop 1) hread
  | case5 c before d ds hrest hend hslash e' hattribute =>
    cases hread
    exact points_readAttribute h.skipBlank hattribute
  | case6 c before d ds hrest hend hslash name value next hattribute hlt ih =>
    exact ih ((h.skipBlank.scan_attribute).2 _ hattribute) hread

/-! ## Constructs -/

/-- A closing tag keeps the offset of its `<`. -/
def Token.Pointed (source : List Char) : Token → Prop
  | .closing _ offset => OpensAt source offset
  | _ => True

/-- A reading step points into the source with its tokens and with its failure. -/
def Reading.Pointed (source : List Char) : Reading → Prop
  | .token t _ => t.Pointed source
  | .nothing _ => True
  | .failed last f => (∀ t ∈ last, t.Pointed source) ∧ Points source f.error

/-- The closing tag of a raw element begins with `<`, in any case of letters. -/
theorem eq_lt_of_closesRaw {tag : String} {cs : List Char} (h : closesRaw tag cs = true) :
    ∃ tail, cs = '<' :: tail := by
  obtain ⟨behind, hlower⟩ := closesRaw_iff.mp h
  cases cs with
  | nil => cases hlower
  | cons first tail =>
    have hfirst : '<' = first.toLower := (List.cons.inj hlower).1
    by_cases heq : first = '<'
    · exact ⟨tail, heq ▸ rfl⟩
    · have hnot : '<' ∉ lower [first] := lt_not_mem_lower (by simpa using Ne.symm heq)
      exact absurd (List.mem_singleton.mpr hfirst) hnot

/-- A raw element fails at its opening tag, or at its closing tag that does not end. -/
theorem pointed_readRaw (h : At source c) {tag : String} (attributes : Attributes) {start : Nat}
    (hstart : OpensAt source start) : (readRaw tag attributes start c).Pointed source := by
  unfold readRaw
  rcases h.scan_find (closesRaw tag) with ⟨_, hcut⟩ | ⟨raw, close, _, hcut, hclose, _, _, hstop, _⟩
  · rw [hcut]
    refine ⟨?_, hstart⟩
    rintro t ⟨⟩
    trivial
  · rw [hcut]
    dsimp only
    split
    · trivial
    · obtain ⟨tail, htail⟩ := eq_lt_of_closesRaw hstop
      refine ⟨?_, opensAt hclose htail⟩
      rintro t ⟨⟩
      trivial

theorem pointed_readOpening (h : At source c) {tail : List Char} (hrest : c.rest = '<' :: tail) :
    (readOpening c).Pointed source := by
  have hstart := opensAt h hrest
  have hname := (h.drop 1).takeWhile isTagNameChar
  simp only [readOpening]
  have hend := (attributes_eq (κ := Unit) .empty "" c.offset [] hname).2
  generalize hread : readAttributes c.offset ((c.drop 1).takeWhile isTagNameChar).2 [] = result at hend
  obtain ⟨attributes, result⟩ := result
  cases result with
  | error e =>
    refine ⟨?_, points_readAttributes hname hstart hread⟩
    rintro t ⟨⟩
  | ok result =>
    obtain ⟨closed, last⟩ := result
    dsimp only
    split
    · trivial
    split
    · exact pointed_readRaw (hend _ _ _ rfl) attributes hstart
    · trivial

/-- **What a reading step reports points into the source.** -/
theorem pointed_read (h : At source c) : (Markup.read c).Pointed source := by
  have none_last : ∀ t ∈ (none : Option Token), t.Pointed source := fun _ ht => by cases ht
  rw [read_eq]
  split
  · rename_i hstarts
    obtain ⟨tail, htail⟩ := Text.startsWith_eq_true_iff.mp hstarts
    unfold readComment
    split
    · trivial
    · exact ⟨none_last, opensAt h htail.symm⟩
  split
  · rename_i hstarts
    obtain ⟨tail, htail⟩ := Text.startsWith_eq_true_iff.mp hstarts
    unfold readClosing
    split
    · exact opensAt h htail.symm
    · exact ⟨none_last, opensAt h htail.symm⟩
  split
  · rename_i hstarts
    obtain ⟨tail, htail⟩ := Text.startsWith_eq_true_iff.mp hstarts
    unfold readDeclaration
    split
    · trivial
    · exact ⟨none_last, opensAt h htail.symm⟩
  split
  · rename_i hstarts
    obtain ⟨first, tail, htail⟩ := exists_of_startsMarkup hstarts
    exact pointed_readOpening h htail
  · trivial

/-! ## Tokens -/

/-- **The tokens of a source, and where it fails, point into it.** -/
theorem points_lex (h : At source c) :
    (∀ t ∈ (lex c).tokens, t.Pointed source) ∧
      ∀ f, (lex c).failure = some f → Points source f.error := by
  fun_induction lex c with
  | case1 c hrest => exact ⟨fun _ ht => absurd ht List.not_mem_nil, fun _ hf => by cases hf⟩
  | case2 c hrest t next hread hlt ih =>
    have hnext : At source next :=
      (construct_meets (κ := Unit) .empty .empty h hrest).2 next (congrArg next? hread)
    have hpointed := pointed_read h
    rw [hread] at hpointed
    refine ⟨?_, (ih hnext).2⟩
    intro t' ht'
    rcases List.mem_cons.mp ht' with rfl | htail
    · exact hpointed
    · exact (ih hnext).1 t' htail
  | case3 c hrest next hread hlt ih =>
    exact ih ((construct_meets (κ := Unit) .empty .empty h hrest).2 next (congrArg next? hread))
  | case4 c hrest last f hread =>
    have hpointed := pointed_read h
    rw [hread] at hpointed
    refine ⟨fun t ht => hpointed.1 t (Option.mem_toList.mp ht), ?_⟩
    rintro _ ⟨⟩
    exact hpointed.2

/-- A token that does not fit is a closing tag, and the error has its offset. -/
theorem points_step {b : Builder} {t : Token} {e : Error} (ht : t.Pointed source)
    (hstep : b.step t = .error e) : Points source e := by
  cases t with
  | closing tag offset =>
    simp only [Builder.step] at hstep
    split at hstep
    · cases hstep
    · split at hstep
      · cases hstep
        exact ht
      · split at hstep
        · cases hstep
        · cases hstep
          exact ht
  | _ => cases hstep

theorem points_run {ts : List Token} (hts : ∀ t ∈ ts, t.Pointed source) {b b' : Builder} {e : Error}
    (hrun : b.run ts = (b', some e)) : Points source e := by
  induction ts generalizing b with
  | nil => cases hrun
  | cons t ts ih =>
    have htail := fun t ht => hts t (List.mem_cons_of_mem _ ht)
    simp only [Builder.run] at hrun
    split at hrun
    · exact ih htail hrun
    · rename_i hstep
      cases hrun
      exact points_step (hts t List.mem_cons_self) hstep

/-- **The error of a parse points into the source.** -/
theorem points_parse {e : Error} (h : (parse source).error = some e) : Points source e := by
  obtain ⟨htokens, hfailure⟩ := points_lex (At.start source)
  unfold parse at h
  dsimp only at h
  split at h
  · rename_i hrun
    cases h
    exact points_run htokens hrun
  · split at h
    · rename_i hfailed
      cases h
      exact hfailure _ hfailed
    · cases h

end BoundView.Markup

namespace BoundView.Dom

open BoundView.Markup (Points points_parse)

variable {κ : Type}

/-- **Parsing is safe**: on every document and every source the stepwise parse comes to an end, with
each of its rounds going forward, each of its slices cut at characters and each of its appends allowed;
it does what `parseFragment` does; and where that fails, the error points into the source. -/
theorem Document.parse_safe (d : Document κ) (source : String) :
    d.stepwise source = some (d.parseFragment source) ∧
      ∀ e, (d.parseFragment source).1 = .error e →
        Points source.toList e ∧ e.offset < Text.bytes source.toList := by
  refine ⟨d.stepwise_eq source, fun e he => ?_⟩
  have hpoints : Points source.toList e := by
    apply points_parse
    unfold Document.parseFragment at he
    dsimp only at he
    split at he
    · rename_i hparsed
      cases he
      exact hparsed
    · cases he
  exact ⟨hpoints, hpoints.lt⟩

end BoundView.Dom
