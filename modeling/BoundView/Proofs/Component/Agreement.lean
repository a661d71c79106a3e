import BoundView.Proofs.Component.Page

/-!
# Patching agrees with rendering from scratch

A component is made from data and then written to; or it is made from the final values at once. The
first way patches the nodes that depend on the written keys, the second never patches. Both end with a
component that shows one page with the same values, and so look alike. It makes no difference which of
the writes the `created` hook performs, that is, which come before the first rendering.

Where the component is made, and whether it is refused, is read off the document and the declared keys
alone, so the two ways also refuse for the same reasons.

Main statement: `patching_agrees`.
-/

namespace BoundView

open BoundView.Dom (Document NodeId)

variable {κ σ : Type}

/-! ## The two ways -/

namespace Run

/-- A hook performs its writes. -/
def performing : Handle Writes σ := fun writes occasion =>
  match occasion with
  | .hook id => writeAll id writes
  | _ => pure ()

end Run

/-- The data with the last of all writes to each key. -/
def lastValues (data : Writes) (writes : Writes) : Writes :=
  data.map fun (key, value) => (key, (writes.reverse.lookup key).getD value)

namespace Run

/-- **Mounts and then writes**; some writes may come in the `created` hook already. -/
def incremental (source : String) (config : Config Writes) (created : Option Writes)
    (after : Writes) : Run Writes σ (Except Component.Error (DocumentId × ComponentId)) := do
  match ← mountMarkup performing source { config with created, mounted := none } with
  | .error e => pure (.error e)
  | .ok (document, id) =>
    writeAll id after
    pure (.ok (document, id))

/-- **Mounts with the final values.** -/
def fromScratch (source : String) (config : Config Writes) (writes : Writes) :
    Run Writes σ (Except Component.Error (DocumentId × ComponentId)) :=
  mountMarkup performing source
    { config with data := lastValues config.data writes, created := none, mounted := none }

end Run

/-- **Two runs that end alike**: neither faults, both refuse the component for the same reason or make
it with the same numbers, and then it looks alike. -/
def EndAlike (syncInputs : Bool) :
    EStateM.Result Fault (World κ σ) (Except Component.Error (DocumentId × ComponentId)) →
      EStateM.Result Fault (World κ σ) (Except Component.Error (DocumentId × ComponentId)) → Prop
  | .ok result w, .ok result' w' => result' = result ∧
    ∀ document id, result = .ok (document, id) → LookAlike syncInputs document id w w'
  | _, _ => False

/-! ## The final values -/

theorem lookup_map_value {β : Type} (f : String → β → β) (entries : List (String × β))
    (key : String) :
    (entries.map fun (k, b) => (k, f k b)).lookup key = (entries.lookup key).map (f key) := by
  induction entries with
  | nil => rfl
  | cons entry rest ih =>
    obtain ⟨k, b⟩ := entry
    rw [List.map_cons, lookup_cons_eq_ite, lookup_cons_eq_ite, ih]
    by_cases hk : key = k
    · rw [if_pos hk, if_pos hk, hk]
      rfl
    · rw [if_neg hk, if_neg hk]

/-- **The final data have the values after all writes.** -/
theorem lookup_lastValues (data writes : Writes) (key : String) :
    (lastValues data writes).reverse.lookup key =
      allWritten (fun k => data.reverse.lookup k) writes key := by
  rw [allWritten_apply]
  unfold lastValues
  rw [← List.map_reverse, lookup_map_value fun k value => (writes.reverse.lookup k).getD value]

/-! ## Making the component -/

/-- Why strict options refuse a template. -/
def refusal? (d : Document (Action κ)) (root : NodeId) (config : Config κ)
    (declared : String → Bool) : Option Component.Error :=
  if config.options.strict then
    (Template.ofContents (d.contents (d.children root))).violation? declared
      fun name => (config.methods.reverse.lookup name).isSome
  else none

/-- What comes of a component that may be refused. -/
def outcome {α : Type} (refusal : Option Component.Error) (a : α) : Except Component.Error α :=
  refusal.elim (.ok a) .error

namespace Run

variable {c : Contract Writes σ} {d : Document (Action Writes)}

/-- The hook of a component performs its writes. -/
theorem runHook_spec (hc : c.Awaits d) (created : Option Writes) (values : String → Option Value) :
    Triple ((c.withValues (· = values)).Met .idle) (runHook performing 0 created)
      (fun _ => (c.withValues (· = allWritten values (created.getD []))).Met .idle)
      fun _ => False := by
  cases created with
  | none => exact Triple.pure fun _ h => h
  | some writes =>
    have hwrites := (writeAll_spec c .idle values writes).faultless hc.failed
    rw [hc.id] at hwrites
    exact hwrites

/-- What is compiled is the content of the root as it was parsed. -/
theorem compiled_eq (hc : c.Awaits d) {values : (String → Option Value) → Prop}
    {w : World Writes σ} (hw : (c.withValues values).Met .idle w) :
    w.compiled 0 = Template.ofContents (d.contents (d.children c.root)) := by
  have hfits : (c.withValues values).Fits (w.component c.id) := hw.fits
  have hframed : c.frame (w.document c.document) := hw.framed
  rw [hc.id] at hfits
  rw [hc.frame] at hframed
  unfold World.compiled
  dsimp only
  rw [hfits.document, hfits.root]
  show Template.ofContents ((w.document c.document).contents
    ((w.document c.document).children c.root)) = _
  rw [hframed]

/-- **Whether strict options refuse the template** depends on the declared keys only. -/
theorem violation_eq_refusal (hc : c.Awaits d) {config : Config Writes}
    (hoptions : c.options = config.options) (hmethods : c.methods = config.methods)
    {values : String → Option Value} {w : World Writes σ}
    (hw : (c.withValues (· = values)).Met .idle w) :
    (if (w.component 0).options.strict then (w.compiled 0).violation?
        (w.component 0).store.contains fun name => ((w.component 0).method? name).isSome
      else none) = refusal? d c.root config fun key => (values key).isSome := by
  have hfits : (c.withValues (· = values)).Fits (w.component c.id) := hw.fits
  rw [hc.id] at hfits
  have hdeclared : (w.component 0).store.contains = fun key => (values key).isSome := by
    funext key
    have hvalued : w.value? c.store = values := hw.valued
    rw [← hvalued, hfits.store]
    exact (Option.isSome_map ..).symm
  unfold refusal? Component.method?
  rw [compiled_eq hc hw, hdeclared, hfits.options, hfits.methods]
  show (if c.options.strict then _ else none) = _
  rw [hoptions]
  show (if _ then Template.violation? _ (fun name => (c.methods.reverse.lookup name).isSome) _
    else none) = _
  rw [hmethods]

/-- **Bringing a component up** performs the writes of its hook, then refuses or shows the page. -/
theorem bringUp_shows (hc : c.Awaits d) {config : Config Writes}
    (hoptions : c.options = config.options) (hmethods : c.methods = config.methods)
    (hmounted : config.mounted = none) (values : String → Option Value) :
    Triple ((c.withValues (· = values)).Met .idle) (bringUp performing 0 config)
      (fun result w =>
        result = outcome (refusal? d c.root config fun key => (values key).isSome) () ∧
          (result = .ok () → Shows (Reference.ofDocument d c.options c.root)
            (allWritten values (config.created.getD [])) w))
      fun _ => False := by
  have hcreated := runHook_spec hc config.created values
  have hdeclared : (fun key => (values key).isSome) =
      fun key => (allWritten values (config.created.getD []) key).isSome :=
    funext fun key => (isSome_allWritten values _ key).symm
  generalize allWritten values (config.created.getD []) = final at *
  rw [hdeclared]
  unfold bringUp
  refine Triple.bind hcreated fun _ => ?_
  refine Triple.bind (Q := fun _ => (c.withValues (· = final)).Met .idle)
    (Triple.modify fun _ h => h.tell _) fun _ => ?_
  refine Triple.get_bind fun w hw => ?_
  refine Triple.get_bind fun w' he => ?_
  subst he
  dsimp only
  rw [violation_eq_refusal hc hoptions hmethods hw, hmounted, compiled_eq hc hw]
  cases refusal? d c.root config fun key => (final key).isSome with
  | some e => exact Triple.pure fun w h => ⟨rfl, fun h => by cases h⟩
  | none =>
    refine Triple.bind (Triple.at_world (renderComponent_shows hc final) hw) fun _ => ?_
    refine Triple.bind (Q := fun _ => Shows (Reference.ofDocument d c.options c.root) final)
      (Triple.pure fun _ h => h) fun _ => ?_
    refine Triple.bind (Q := fun _ => Shows (Reference.ofDocument d c.options c.root) final)
      (Triple.modify ?_) fun _ => Triple.pure fun w h => ⟨rfl, fun _ => h⟩
    rintro w ⟨c', hc', hw'⟩
    exact ⟨c', hc', hw'.tell _⟩

end Run

/-- What is agreed before the first rendering. -/
def pageTerms (d : Document (Action Writes)) (config : Config Writes) :
    Terms Writes σ config.options where
  loose _ _ := config.options.syncInputs = false
  frame := (· = d)
  values := (· = fun key => config.data.reverse.lookup key)
  note _ := True
  failed _ := False
  loose_of_syncInputs h _ _ := h

/-- **Where a component is made on a document, or why it is refused.** -/
def verdict (d : Document (Action Writes)) (config : Config Writes) (declared : String → Bool) :
    Except Component.Error NodeId :=
  match Selector.parse config.el with
  | .error e => .error (.invalidSelector e)
  | .ok selector =>
    match selector.query d with
    | none => .error (.rootNotFound config.el)
    | some root => outcome (refusal? d root config declared) root

/-- **The world of a parsed document**, in which nothing else was made. -/
structure Parsed (d : Document (Action Writes)) (w : World Writes σ) : Prop where
  components : w.components.size = 0
  subscribers : w.subscribers.size = 0
  document_lt : 0 < w.documents.size
  document : w.document 0 = d

variable {d : Document (Action Writes)} {root : NodeId}

/-- A new component waits for its first rendering. -/
theorem awaits_made (hd : d.Coherent) (hroot : root < d.size)
    (hcontainer : (d.content root).isContainer = true) {w : World Writes σ}
    (hw : w.components.size = 0) (config : Config Writes) :
    (Contract.made w 0 root config (pageTerms d config)).Awaits d where
  id := hw
  document := rfl
  frame := rfl
  loose := rfl
  failed := rfl
  coherent := hd
  root_lt := hroot
  container := hcontainer

/-- The page has the root. -/
theorem Reference.root_lt_page (hd : d.Coherent) (hroot : root < d.size)
    (hcontainer : (d.content root).isContainer = true) (options : Options) :
    root < (Reference.ofDocument d options root).page.size := by
  have hfault := (Template.ofContents (d.contents (d.children root))).mount_fault_eq_none
    ⟨fun _ => none, options.missingKey, Component.binder 0⟩ hd hroot hcontainer
  show root < (Template.mount _ d root _).document.size
  rw [(Template.mount_same hfault).1.size, Template.size_planted]
  exact Nat.lt_of_lt_of_le hroot (Nat.le_trans (Nat.le_succ _) (Nat.le_add_right _ _))

namespace Run

/-- **Making a component** on a parsed document ends as the verdict says. -/
theorem mount_shows (hd : d.Coherent) {config : Config Writes} (hmounted : config.mounted = none)
    (declared : String → Bool)
    (hdeclared : ∀ key, (config.data.reverse.lookup key).isSome = declared key) :
    Triple (Parsed (σ := σ) d) (mount performing 0 config)
      (fun result w => result = (verdict d config declared).map (fun _ => 0) ∧
        ∀ root, verdict d config declared = .ok root →
          root < (Reference.ofDocument d config.options root).page.size ∧
            Shows (Reference.ofDocument d config.options root)
              (allWritten (fun key => config.data.reverse.lookup key) (config.created.getD [])) w)
      fun _ => False := by
  unfold mount verdict
  refine Triple.bind (Q := fun _ => Parsed d) (Triple.modify fun _ h => { h with }) fun _ => ?_
  cases Selector.parse config.el with
  | error e => exact Triple.pure fun w _ => ⟨rfl, fun root h => by cases h⟩
  | ok selector =>
    refine Triple.get_bind fun w hw => ?_
    rw [hw.document]
    dsimp only
    cases hquery : selector.query d with
    | none => exact Triple.pure fun w _ => ⟨rfl, fun root h => by cases h⟩
    | some root =>
      obtain ⟨hroot, e, he⟩ := Selector.exists_element_of_query hquery
      refine Triple.get_bind fun w' heq => ?_
      subst heq
      have hadded : (Contract.made w' 0 root config (pageTerms d config)).Met .idle
          (w'.addComponent 0 root config) :=
        Contract.met_made hw.components hw.subscribers hw.document_lt hw.document rfl trivial
      have hcontainer : (d.content root).isContainer = true := by
        rw [he]
        rfl
      have hawaits := awaits_made hd hroot hcontainer hw.components config
      have hpage := Reference.root_lt_page hd hroot hcontainer config.options
      have hbring : Triple ((Contract.made w' 0 root config (pageTerms d config)).Met .idle)
          (bringUp performing 0 config)
          (fun result w => result = outcome (refusal? d root config declared) () ∧
            (result = .ok () → Shows (Reference.ofDocument d config.options root)
              (allWritten (fun key => config.data.reverse.lookup key) (config.created.getD [])) w))
          fun _ => False := by
        rw [← funext hdeclared]
        exact bringUp_shows hawaits rfl rfl hmounted fun key => config.data.reverse.lookup key
      generalize Contract.made w' 0 root config (pageTerms d config) = c at *
      dsimp only
      rw [hw.components]
      refine Triple.bind (Q := fun _ => c.Met .idle) (Triple.modify ?_) fun _ => ?_
      · rintro w'' rfl
        exact hadded
      refine Triple.tryCatch (F := fun _ => False) (Triple.bind hbring fun result => ?_) fun f =>
        fun _ h => h.elim
      cases refusal? d root config declared with
      | some e =>
        refine Triple.assuming (φ := result = .error e) (fun _ h => h.1) ?_
        rintro rfl
        refine Triple.bind (Q := fun _ _ => True) (Triple.modify fun _ _ => trivial) fun _ => ?_
        exact Triple.pure fun w _ => ⟨rfl, fun root h => by cases h⟩
      | none =>
        refine Triple.assuming (φ := result = .ok ()) (fun _ h => h.1) ?_
        rintro rfl
        refine Triple.pure fun w h => ⟨rfl, fun root' h' => ?_⟩
        cases h'
        exact ⟨hpage, h.2 rfl⟩

/-- **How a run ends on a source**: in a parse error, in a refusal, or with a component that shows the
page of the parsed document. The verdict does not depend on the values. -/
def EndsAs (source : String) (config : Config Writes) (values : String → Option Value)
    (result : Except Component.Error (DocumentId × ComponentId)) (w : World Writes σ) : Prop :=
  match (Document.parse source : Except Markup.Error (Document (Action Writes))) with
  | .error e => result = .error (.markup e)
  | .ok d =>
    match verdict d config fun key => (config.data.reverse.lookup key).isSome with
    | .error e => result = .error e
    | .ok root => result = .ok (0, 0) ∧ root < (Reference.ofDocument d config.options root).page.size ∧
        Shows (Reference.ofDocument d config.options root) values w

/-- **Making a component from markup** ends as the verdict on the parsed document says, whatever the
values are and whatever the hook writes. -/
theorem mountMarkup_endsAs (source : String) (config : Config Writes) (data : Writes)
    (created : Option Writes) (host : σ)
    (hdata : ∀ key, (data.reverse.lookup key).isSome = (config.data.reverse.lookup key).isSome) :
    Triple (· = World.ofHost host)
      (mountMarkup performing source { config with data, created, mounted := none })
      (EndsAs source config (allWritten (fun key => data.reverse.lookup key) (created.getD [])))
      fun _ => False := by
  unfold mountMarkup parseDocument EndsAs
  cases hparse : (Document.parse source : Except Markup.Error (Document (Action Writes))) with
  | error e =>
    refine Triple.bind (Q := fun result _ => result = .error e) ?_ fun result => ?_
    · refine Triple.bind (Q := fun _ _ => True) (Triple.modify fun _ _ => trivial) fun _ => ?_
      exact Triple.pure fun _ _ => rfl
    · refine Triple.assuming (φ := result = .error e) (fun _ h => h) ?_
      rintro rfl
      exact Triple.pure fun _ _ => rfl
  | ok d =>
    refine Triple.bind (Q := fun result w => result = .ok 0 ∧ Parsed d w) ?_ fun result => ?_
    · refine Triple.bind (Q := fun _ w => w = (World.ofHost host).tell [.parsing source.utf8ByteSize])
        (Triple.modify fun _ h => by rw [h]) fun _ => ?_
      refine Triple.get_bind fun w hw => ?_
      refine Triple.bind (Q := fun _ w' => w' = { w with documents := w.documents.push d })
        (Triple.modify fun _ h => by rw [h]) fun _ => ?_
      apply Triple.pure
      rintro w' rfl
      rw [hw]
      exact ⟨rfl, rfl, rfl, Nat.zero_lt_one, rfl⟩
    · refine Triple.assuming (φ := result = .ok 0) (fun _ h => h.1) ?_
      rintro rfl
      have hmount : Triple (Parsed (σ := σ) d)
          (mount performing 0 { config with data, created, mounted := none })
          (fun result w =>
            result = (verdict d config fun key => (config.data.reverse.lookup key).isSome).map
              (fun _ => 0) ∧
            ∀ root, verdict d config (fun key => (config.data.reverse.lookup key).isSome) = .ok root →
              root < (Reference.ofDocument d config.options root).page.size ∧
                Shows (Reference.ofDocument d config.options root)
                  (allWritten (fun key => data.reverse.lookup key) (created.getD [])) w)
          fun _ => False :=
        mount_shows (Document.coherent_of_parse hparse) rfl _ hdata
      refine Triple.map (hmount.pre fun _ h => h.2) fun result w h => ?_
      rw [h.1]
      dsimp only
      cases hverdict : verdict d config fun key => (config.data.reverse.lookup key).isSome with
      | error e => rfl
      | ok root => exact ⟨rfl, h.2 root hverdict⟩

/-- **Mounting and then writing** shows the page with the values after all writes. -/
theorem incremental_endsAs (source : String) (config : Config Writes) (created : Option Writes)
    (after : Writes) (host : σ) :
    Triple (· = World.ofHost host) (incremental source config created after)
      (EndsAs source config
        (allWritten (fun key => config.data.reverse.lookup key) (created.getD [] ++ after)))
      fun _ => False := by
  have hmount := mountMarkup_endsAs source config config.data created host fun _ => rfl
  refine Triple.bind hmount fun result => ?_
  unfold EndsAs
  cases (Document.parse source : Except Markup.Error (Document (Action Writes))) with
  | error e =>
    refine Triple.assuming (φ := result = .error (.markup e)) (fun _ h => h) ?_
    rintro rfl
    exact Triple.pure fun _ _ => rfl
  | ok d =>
    dsimp only
    cases verdict d config fun key => (config.data.reverse.lookup key).isSome with
    | error e =>
      refine Triple.assuming (φ := result = .error e) (fun _ h => h) ?_
      rintro rfl
      exact Triple.pure fun _ _ => rfl
    | ok root =>
      refine Triple.assuming (φ := result = .ok (0, 0) ∧
        root < (Reference.ofDocument d config.options root).page.size) (fun _ h => ⟨h.1, h.2.1⟩) ?_
      rintro ⟨rfl, hroot⟩
      have hwrites := writeAll_shows (σ := σ) (Reference.ofDocument d config.options root)
        (allWritten (fun key => config.data.reverse.lookup key) (created.getD [])) after
      rw [← allWritten_append] at hwrites
      exact Triple.bind (hwrites.pre fun _ h => h.2.2) fun _ =>
        Triple.pure fun _ h => ⟨rfl, hroot, h⟩

/-- **Mounting with the final values** shows the page with just these values. -/
theorem fromScratch_endsAs (source : String) (config : Config Writes) (writes : Writes) (host : σ) :
    Triple (· = World.ofHost host) (fromScratch source config writes)
      (EndsAs source config (allWritten (fun key => config.data.reverse.lookup key) writes))
      fun _ => False := by
  have hvalues : (fun key => (lastValues config.data writes).reverse.lookup key) =
      allWritten (fun key => config.data.reverse.lookup key) writes :=
    funext (lookup_lastValues config.data writes)
  have hmount := mountMarkup_endsAs source config (lastValues config.data writes) none host
    fun key => by rw [lookup_lastValues, isSome_allWritten]
  rw [hvalues] at hmount
  exact hmount

end Run

/-- Two runs that end on one source with the same values end alike. -/
theorem endAlike_of_endsAs {source : String} {config : Config Writes}
    {values : String → Option Value}
    {m m' : Run Writes σ (Except Component.Error (DocumentId × ComponentId))} {start : World Writes σ}
    (h : Run.After (Run.EndsAs source config values) (fun _ => False) (m start))
    (h' : Run.After (Run.EndsAs source config values) (fun _ => False) (m' start)) :
    EndAlike config.options.syncInputs (m start) (m' start) := by
  cases hm : m start with
  | error f w =>
    rw [hm] at h
    exact h.elim
  | ok result w =>
    cases hm' : m' start with
    | error f w' =>
      rw [hm'] at h'
      exact h'.elim
    | ok result' w' =>
      rw [hm] at h
      rw [hm'] at h'
      unfold Run.After Run.EndsAs at h h'
      cases hparse : (Document.parse source : Except Markup.Error (Document (Action Writes))) with
      | error e =>
        rw [hparse] at h h'
        refine ⟨h'.trans h.symm, fun document id hmade => ?_⟩
        rw [show result = .error (.markup e) from h] at hmade
        cases hmade
      | ok d =>
        rw [hparse] at h h'
        dsimp only at h h'
        cases hverdict : verdict d config fun key => (config.data.reverse.lookup key).isSome with
        | error e =>
          rw [hverdict] at h h'
          refine ⟨h'.trans h.symm, fun document id hmade => ?_⟩
          rw [show result = .error e from h] at hmade
          cases hmade
        | ok root =>
          rw [hverdict] at h h'
          obtain ⟨hresult, hroot, hshows⟩ := h
          obtain ⟨hresult', _, hshows'⟩ := h'
          refine ⟨hresult'.trans hresult.symm, fun document id hmade => ?_⟩
          rw [hresult] at hmade
          cases hmade
          exact lookAlike_of_shows hroot hshows hshows'

/-- **Patching agrees with rendering from scratch.** For any markup, data, options and sequence of
writes, to keys that are declared or not: mounting and then performing the writes, and performing the
first of them in the `created` hook and the others after mounting, both end as mounting with the data
that already hold the final values. No run faults; either all refuse the component for the same reason,
or the root has the same markup in all of them, and where bound inputs follow writes every node, those
of bound elements among them, has the same live value. -/
theorem patching_agrees (source : String) (config : Config Writes) (before after : Writes)
    (host : σ) :
    EndAlike config.options.syncInputs
        (Run.fromScratch source config (before ++ after) (World.ofHost host))
        (Run.incremental source config none (before ++ after) (World.ofHost host)) ∧
      EndAlike config.options.syncInputs
        (Run.fromScratch source config (before ++ after) (World.ofHost host))
        (Run.incremental source config (some before) after (World.ofHost host)) := by
  have hscratch := Run.fromScratch_endsAs source config (before ++ after) host _ rfl
  have hafter := Run.incremental_endsAs source config none (before ++ after) host _ rfl
  have hduring := Run.incremental_endsAs source config (some before) after host _ rfl
  exact ⟨endAlike_of_endsAs hscratch hafter, endAlike_of_endsAs hscratch hduring⟩

end BoundView
