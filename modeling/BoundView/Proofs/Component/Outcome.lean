import BoundView.Proofs.Component.Strictness

/-!
# How the making of a component ends

Making a component can be refused in three places. Its selector may not parse, or find no root: then
nothing has happened. Its template may be refused by strict options: then the `created` hook has run,
and the documents are as it left them. What is wrong with a template is said here without the check
that finds it: a part **offends** by the first of its keys or methods that is missing, and a template by
the first of its parts in preorder that offends. Where nothing is wrong rendering does not fail, so a
component is made unless one of its own hooks fails.

Main statements: `Template.violation?_eq_some_iff`, the check reports the first offence and no other,
and `mount_ends`, how the making of a component ends.
-/

namespace BoundView

open BoundView.Dom (Document NodeId)
open BoundView.World (Honors)

/-! ## Offences -/

/-- **What a part offends with**, given the keys that are declared and the methods that are supplied: the
first marker of a text that names another key; the first event attribute that names another method, blanks
at the ends of its value aside; and the key that an element is bound to, once all its methods are there. -/
inductive Part.Offends (keys methods : List String) : Part → Component.Error → Prop
  | marker {raw : String} {rendered : Option NodeId} {before after : List String} {key : String}
      (split : (Part.text raw rendered).keys = before ++ key :: after)
      (declared : ∀ other ∈ before, other ∈ keys) (missing : key ∉ keys) :
      Offends keys methods (.text raw rendered) (.undeclaredKey key)
  | method {tag : String} {attributes : Dom.Attributes} {rendered : Option NodeId}
      {before after : List (String × String)} {event : String × String}
      (split : (Part.element tag attributes rendered).events = before ++ event :: after)
      (known : ∀ other ∈ before, Text.trimmed other.2 ∈ methods)
      (missing : Text.trimmed event.2 ∉ methods) :
      Offends keys methods (.element tag attributes rendered) (.unknownMethod (Text.trimmed event.2))
  | bound {tag : String} {attributes : Dom.Attributes} {rendered : Option NodeId} {key : String}
      (known : ∀ event ∈ (Part.element tag attributes rendered).events,
        Text.trimmed event.2 ∈ methods)
      (model : (Part.element tag attributes rendered).modelKey? = some key) (missing : key ∉ keys) :
      Offends keys methods (.element tag attributes rendered) (.undeclaredKey key)

/-- **What a template offends with**: what its first part that offends does. -/
def Template.Offends (t : Template) (keys methods : List String) (e : Component.Error) : Prop :=
  ∃ before p after, t.preorder = before ++ p :: after ∧
    (∀ q ∈ before, ∀ other, ¬ q.Offends keys methods other) ∧ p.Offends keys methods e

section

variable {keys methods : List String} {declared known : String → Bool}
  (hdeclared : ∀ key, declared key = true ↔ key ∈ keys)
  (hknown : ∀ name, known name = true ↔ name ∈ methods)

include hdeclared hknown

/-- **The check of a part reports what it offends with.** -/
theorem Part.violation?_eq_some_iff (p : Part) (e : Component.Error) :
    p.violation? declared known = some e ↔ p.Offends keys methods e := by
  have hundeclared : ∀ key, (!declared key) = true ↔ key ∉ keys := by simp [← hdeclared]
  have hunknown : ∀ name, (!known name) = true ↔ name ∉ methods := by simp [← hknown]
  cases p with
  | comment raw => exact iff_of_false (by simp [violation?]) fun h => nomatch h
  | text raw rendered =>
    unfold violation?
    rw [Option.map_eq_some_iff]
    constructor
    · rintro ⟨key, hfind, rfl⟩
      obtain ⟨hkey, before, after, hsplit, hbefore⟩ := List.find?_eq_some_iff_append.mp hfind
      exact .marker hsplit (fun other hother => by simpa [hdeclared] using hbefore other hother)
        ((hundeclared key).mp hkey)
    · rintro (⟨hsplit, hbefore, hkey⟩ | _ | _)
      refine ⟨_, List.find?_eq_some_iff_append.mpr ⟨(hundeclared _).mpr hkey, _, _, hsplit, ?_⟩, rfl⟩
      exact fun other hother => by simpa [hdeclared] using hbefore other hother
  | element tag attributes rendered =>
    unfold violation?
    dsimp only
    rw [List.find?_map]
    dsimp only [Function.comp_def]
    cases hfind : (element tag attributes rendered).events.find?
        fun event => !known (Text.trimmed event.2) with
    | some event =>
      obtain ⟨hevent, before, after, hsplit, hbefore⟩ := List.find?_eq_some_iff_append.mp hfind
      have hmissing : Text.trimmed event.2 ∉ methods := (hunknown _).mp hevent
      have hbefore' : ∀ other ∈ before, Text.trimmed other.2 ∈ methods :=
        fun other hother => by simpa [hknown] using hbefore other hother
      dsimp only [Option.map_some]
      constructor
      · rintro ⟨⟩
        exact .method hsplit hbefore' hmissing
      · rintro (_ | ⟨hsplit', hknown', hmissing'⟩ | ⟨hknown', _, _⟩)
        · -- both are the first event of the same list whose method is missing
          have hfind' : (element tag attributes rendered).events.find?
              (fun event => !known (Text.trimmed event.2)) = some _ :=
            List.find?_eq_some_iff_append.mpr ⟨(hunknown _).mpr hmissing', _, _, hsplit',
              fun other hother => by simpa [hknown] using hknown' other hother⟩
          rw [hfind'] at hfind
          rw [Option.some.inj hfind]
        · exact absurd (hknown' event (hsplit ▸ by simp)) hmissing
    | none =>
      have hall : ∀ event ∈ (element tag attributes rendered).events,
          Text.trimmed event.2 ∈ methods := by
        intro event hevent
        have := List.find?_eq_none.mp hfind event hevent
        simpa [hknown] using this
      dsimp only [Option.map_none]
      rw [Option.map_eq_some_iff]
      constructor
      · rintro ⟨key, hfilter, rfl⟩
        obtain ⟨hmodel, hkey⟩ := Option.filter_eq_some_iff.mp hfilter
        exact .bound hall hmodel ((hundeclared key).mp hkey)
      · rintro (_ | ⟨hsplit, _, hmissing⟩ | ⟨_, hmodel, hkey⟩)
        · exact absurd (hall _ (hsplit ▸ by simp)) hmissing
        · exact ⟨_, Option.filter_eq_some_iff.mpr ⟨hmodel, (hundeclared _).mpr hkey⟩, rfl⟩

/-- **The check of a template reports its first offence**, and nothing else. -/
theorem Template.violation?_eq_some_iff (t : Template) (e : Component.Error) :
    t.violation? declared known = some e ↔ t.Offends keys methods e := by
  have hpart := Part.violation?_eq_some_iff hdeclared hknown
  have hsilent : ∀ q : Part, q.violation? declared known = none ↔
      ∀ other, ¬ q.Offends keys methods other := by
    intro q
    rw [Option.eq_none_iff_forall_ne_some]
    exact forall_congr' fun other => not_congr (hpart q other)
  unfold violation? Offends
  rw [List.findSome?_eq_some_iff]
  constructor
  · rintro ⟨before, p, after, hsplit, hp, hbefore⟩
    exact ⟨before, p, after, hsplit, fun q hq => (hsilent q).mp (hbefore q hq), (hpart p e).mp hp⟩
  · rintro ⟨before, p, after, hsplit, hbefore, hp⟩
    exact ⟨before, p, after, hsplit, (hpart p e).mpr hp, fun q hq => (hsilent q).mpr (hbefore q hq)⟩

end

/-! ## The world around it -/

variable {κ σ : Type}

/-- **The selector finds a root.** -/
def Config.Finds {κ' : Type} (config : Config κ) (d : Document κ') (root : NodeId) : Prop :=
  ∃ selector, Selector.parse config.el = .ok selector ∧ selector.query d = some root

namespace World

/-- **The world in which the `created` hook starts**: the component is there and watches its keys, and it
has no template. -/
def begun (w : World κ σ) (document : DocumentId) (root : NodeId) (config : Config κ) : World κ σ :=
  (w.tell [.mounting config.el]).addComponent document root config

theorem documents_watch (w : World κ σ) (id : ComponentId) (key : String) :
    (w.watch id key).documents = w.documents := by
  unfold watch
  split
  · rfl
  · rfl

/-- **A component that is added** touches no document. -/
theorem documents_begun (w : World κ σ) (document : DocumentId) (root : NodeId) (config : Config κ) :
    (w.begun document root config).documents = w.documents := by
  have hwatch : ∀ (keys : List String) (v : World κ σ) (id : ComponentId),
      (keys.foldl (fun v key => v.watch id key) v).documents = v.documents := by
    intro keys
    induction keys with
    | nil => exact fun _ _ => rfl
    | cons key keys ih => exact fun v id => (ih _ id).trans (v.documents_watch id key)
  exact (hwatch _ _ _).trans (makeStore_spec (w.tell [.mounting config.el]) config.data).documents

theorem documents_releaseComponent (w : World κ σ) (id : ComponentId) :
    (w.releaseComponent id).documents = w.documents := by
  obtain ⟨_, _, hrelease⟩ := w.exists_releaseComponent id
  rw [hrelease]

/-- **The verdict of strict options** is what the template offends with. -/
theorem Meets.verdict_eq_some_iff {w w₀ : World κ σ} {id : ComponentId} {d : Document (Action κ)}
    {document : DocumentId} {root : NodeId} {config : Config κ}
    (h : w.Meets ⟨id, (w₀.added document root config).charter, d⟩) (e : Component.Error) :
    w.verdict id = some e ↔ config.options.strict = true ∧
      (w.compiled id).Offends (config.data.map Prod.fst) (config.methods.map Prod.fst) e := by
  have hoptions : (w.component id).options.strict = config.options.strict := by
    rw [h.options]
    rfl
  unfold verdict
  rw [hoptions]
  by_cases hstrict : config.options.strict = true
  · rw [if_pos hstrict, and_iff_right hstrict]
    refine Template.violation?_eq_some_iff (fun key => ?_) (fun name => ?_) _ e
    · rw [h.store]
      exact contains_makeStore w₀ config.data key
    · unfold Component.method?
      rw [h.methods]
      exact isSome_lookup_reverse config.methods name
  · rw [if_neg hstrict]
    exact iff_of_false (fun he => nomatch he) fun he => hstrict he.1

end World

/-! ## The ends -/

/-- **How making a component ends**, by its selector, its hooks and its template. -/
structure MountEnds (handle : Handle κ σ) (document : DocumentId) (config : Config κ)
    (w : World κ σ) : Prop where
  /-- A selector that does not parse: nothing has happened. -/
  unparsable : ∀ e, Selector.parse config.el = .error e →
    Run.mount handle document config w =
      .ok (.error (.invalidSelector e)) (w.tell [.mounting config.el])
  /-- A selector that finds no root: nothing has happened. -/
  unmatched : ∀ selector, Selector.parse config.el = .ok selector →
    selector.query (w.document document) = none →
      Run.mount handle document config w =
        .ok (.error (.rootNotFound config.el)) (w.tell [.mounting config.el])
  /-- The `created` hook finds the documents as they were. -/
  untouched : ∀ root, (w.begun document root config).documents = w.documents
  /-- The `created` hook fails. -/
  broken : ∀ root, config.Finds (w.document document) root → ∀ f w₂,
    Run.runHook handle w.components.size config.created (w.begun document root config) =
      .error f w₂ →
      ∃ w', Run.mount handle document config w = .error f w' ∧ w'.documents = w₂.documents
  /-- Strict options refuse the template that the `created` hook left, with its first offence, and
  leave the documents. -/
  refused : ∀ root, config.Finds (w.document document) root → ∀ w₂,
    Run.runHook handle w.components.size config.created (w.begun document root config) = .ok () w₂ →
      config.options.strict = true → ∀ e,
        (w₂.compiled w.components.size).Offends (config.data.map Prod.fst)
          (config.methods.map Prod.fst) e →
          ∃ w', Run.mount handle document config w = .ok (.error e) w' ∧ w'.documents = w₂.documents
  /-- In every other case the component is rendered, and made if its `mounted` hook returns. -/
  accepted : ∀ root, config.Finds (w.document document) root → ∀ w₂,
    Run.runHook handle w.components.size config.created (w.begun document root config) = .ok () w₂ →
      (config.options.strict = true → ∀ e, ¬ (w₂.compiled w.components.size).Offends
        (config.data.map Prod.fst) (config.methods.map Prod.fst) e) →
        ∃ w₃, Run.renderComponent w.components.size (w₂.compiled w.components.size)
            (w₂.tell [.compiling]) = .ok () w₃ ∧
          (∀ w₄, Run.runHook handle w.components.size config.mounted w₃ = .ok () w₄ →
            ∃ w', Run.mount handle document config w = .ok (.ok w.components.size) w' ∧
              w'.documents = w₄.documents) ∧
          ∀ f w₄, Run.runHook handle w.components.size config.mounted w₃ = .error f w₄ →
            ∃ w', Run.mount handle document config w = .error f w' ∧ w'.documents = w₄.documents
  /-- Nothing else is refused. -/
  only : ∀ e w', Run.mount handle document config w = .ok (.error e) w' →
    (∃ error, Selector.parse config.el = .error error ∧ e = .invalidSelector error) ∨
      (∃ selector, Selector.parse config.el = .ok selector ∧
        selector.query (w.document document) = none ∧ e = .rootNotFound config.el) ∨
      ∃ root w₂, config.Finds (w.document document) root ∧
        Run.runHook handle w.components.size config.created (w.begun document root config) =
          .ok () w₂ ∧
        config.options.strict = true ∧
        (w₂.compiled w.components.size).Offends (config.data.map Prod.fst)
          (config.methods.map Prod.fst) e ∧
        w'.documents = w₂.documents

namespace Run

variable {handle : Handle κ σ} {document : DocumentId} {config : Config κ} {w : World κ σ}

theorem mount_eq_of_unparsable {e : Selector.Error} (hselector : Selector.parse config.el = .error e) :
    mount handle document config w =
      .ok (.error (.invalidSelector e)) (w.tell [.mounting config.el]) := by
  unfold mount
  rw [bind_ok (show (tell [.mounting config.el] : Run κ σ Unit) w = .ok () _ from rfl), hselector]
  rfl

theorem mount_eq_of_unmatched {selector : Selector}
    (hselector : Selector.parse config.el = .ok selector)
    (hroot : selector.query (w.document document) = none) :
    mount handle document config w =
      .ok (.error (.rootNotFound config.el)) (w.tell [.mounting config.el]) := by
  have hread : (get : Run κ σ (World κ σ)) (w.tell [.mounting config.el]) =
      .ok (w.tell [.mounting config.el]) (w.tell [.mounting config.el]) := rfl
  have hquery : selector.query ((w.tell [.mounting config.el]).document document) = none := hroot
  unfold mount
  rw [bind_ok (show (tell [.mounting config.el] : Run κ σ Unit) w = .ok () _ from rfl), hselector]
  dsimp only
  rw [bind_ok hread, hquery]
  rfl

variable {root : NodeId} (hfinds : config.Finds (w.document document) root)

include hfinds

/-- A fault of the `created` hook is the fault of the whole. -/
theorem mount_of_broken {f : Fault} {w₂ : World κ σ}
    (hcreated : runHook handle w.components.size config.created (w.begun document root config) =
      .error f w₂) :
    mount handle document config w = .error f (w₂.releaseComponent w.components.size) := by
  obtain ⟨selector, hselector, hroot⟩ := hfinds
  have hbring : bringUp handle w.components.size config
      ((w.tell [.mounting config.el]).addComponent document root config) = .error f w₂ :=
    bind_error hcreated
  rw [mount_eq hselector hroot, hbring]

section

variable {w₂ : World κ σ}
  (hcreated : runHook handle w.components.size config.created (w.begun document root config) =
    .ok () w₂)

include hcreated

/-- What the verdict refuses is released, and nothing is rendered. -/
theorem mount_of_verdict {e : Component.Error} (hverdict : w₂.verdict w.components.size = some e) :
    mount handle document config w =
      .ok (.error e) ((w₂.tell [.compiling]).releaseComponent w.components.size) := by
  obtain ⟨selector, hselector, hroot⟩ := hfinds
  have hbring : bringUp handle w.components.size config
      ((w.tell [.mounting config.el]).addComponent document root config) =
        .ok (.error e) (w₂.tell [.compiling]) := by
    refine (bringUp_eq hcreated).trans ?_
    rw [hverdict]
  rw [mount_eq hselector hroot, hbring]

section

variable {w₃ : World κ σ} (hverdict : w₂.verdict w.components.size = none)
  (hrender : renderComponent w.components.size (w₂.compiled w.components.size)
    (w₂.tell [.compiling]) = .ok () w₃)

include hverdict hrender

/-- **A component without an offence** is rendered, and made when its `mounted` hook returns. -/
theorem mount_of_returned {w₄ : World κ σ}
    (hmounted : runHook handle w.components.size config.mounted w₃ = .ok () w₄) :
    mount handle document config w = .ok (.ok w.components.size)
      (w₄.tell [.mounted (w₂.component w.components.size).store.keys.length]) := by
  obtain ⟨selector, hselector, hroot⟩ := hfinds
  have hbring : bringUp handle w.components.size config
      ((w.tell [.mounting config.el]).addComponent document root config) = .ok (.ok ())
        (w₄.tell [.mounted (w₂.component w.components.size).store.keys.length]) := by
    refine (bringUp_eq hcreated).trans ?_
    rw [hverdict]
    exact (bind_ok hrender).trans (bind_ok hmounted)
  rw [mount_eq hselector hroot, hbring]

/-- A fault of the `mounted` hook is the fault of the whole. -/
theorem mount_of_failed {f : Fault} {w₄ : World κ σ}
    (hmounted : runHook handle w.components.size config.mounted w₃ = .error f w₄) :
    mount handle document config w = .error f (w₄.releaseComponent w.components.size) := by
  obtain ⟨selector, hselector, hroot⟩ := hfinds
  have hbring : bringUp handle w.components.size config
      ((w.tell [.mounting config.el]).addComponent document root config) = .error f w₄ := by
    refine (bringUp_eq hcreated).trans ?_
    rw [hverdict]
    exact (bind_ok hrender).trans (bind_error hmounted)
  rw [mount_eq hselector hroot, hbring]

end

end

omit hfinds in
/-- **What is refused** has a wrong selector, or the verdict refuses it, if rendering comes to an end. -/
theorem cases_of_refused (hrendered : ∀ root, config.Finds (w.document document) root → ∀ w₂,
      runHook handle w.components.size config.created (w.begun document root config) = .ok () w₂ →
        ∃ w₃, renderComponent w.components.size (w₂.compiled w.components.size)
          (w₂.tell [.compiling]) = .ok () w₃)
    {e : Component.Error} {w' : World κ σ}
    (hrefused : mount handle document config w = .ok (.error e) w') :
    (∃ error, Selector.parse config.el = .error error ∧ e = .invalidSelector error) ∨
      (∃ selector, Selector.parse config.el = .ok selector ∧
        selector.query (w.document document) = none ∧ e = .rootNotFound config.el) ∨
      ∃ root w₂, config.Finds (w.document document) root ∧
        runHook handle w.components.size config.created (w.begun document root config) = .ok () w₂ ∧
        w₂.verdict w.components.size = some e ∧
        w' = (w₂.tell [.compiling]).releaseComponent w.components.size := by
  cases hselector : Selector.parse config.el with
  | error error =>
    rw [mount_eq_of_unparsable hselector] at hrefused
    cases hrefused
    exact .inl ⟨error, rfl, rfl⟩
  | ok selector =>
    cases hroot : selector.query (w.document document) with
    | none =>
      rw [mount_eq_of_unmatched hselector hroot] at hrefused
      cases hrefused
      exact .inr (.inl ⟨selector, rfl, hroot, rfl⟩)
    | some root =>
      have hfinds : config.Finds (w.document document) root := ⟨selector, hselector, hroot⟩
      cases hcreated : runHook handle w.components.size config.created (w.begun document root config) with
      | error f w₂ =>
        rw [mount_of_broken hfinds hcreated] at hrefused
        cases hrefused
      | ok _ w₂ =>
        cases hverdict : w₂.verdict w.components.size with
        | some error =>
          rw [mount_of_verdict hfinds hcreated hverdict] at hrefused
          cases hrefused
          exact .inr (.inr ⟨root, w₂, hfinds, hcreated, hverdict, rfl⟩)
        | none =>
          obtain ⟨w₃, hrender⟩ := hrendered root hfinds w₂ hcreated
          cases hmounted : runHook handle w.components.size config.mounted w₃ with
          | ok _ w₄ =>
            rw [mount_of_returned hfinds hcreated hverdict hrender hmounted] at hrefused
            cases hrefused
          | error f w₄ =>
            rw [mount_of_failed hfinds hcreated hverdict hrender hmounted] at hrefused
            cases hrefused

end Run

section

variable {customs : Customs κ σ} (hcustoms : customs.Lawful) {depth : Nat} {w : World κ (Diary κ σ)}
  (hcoherent : ∀ other, (w.document other).Coherent) {document : DocumentId}
  (hdocument : document < w.documents.size) {config : Config κ} {root : NodeId}
  {w₂ : World κ (Diary κ σ)}
  (hcreated : Run.runHook (customs.handle depth) w.components.size config.created
    (w.begun document root config) = .ok () w₂)

include hcustoms hcoherent hdocument hcreated

/-- After the `created` hook the verdict is what the template offends with. -/
theorem World.verdict_created (e : Component.Error) :
    w₂.verdict w.components.size = some e ↔ config.options.strict = true ∧
      (w₂.compiled w.components.size).Offends (config.data.map Prod.fst)
        (config.methods.map Prod.fst) e :=
  ((honors_created hcustoms depth hcoherent hdocument hcreated).met _
    List.mem_cons_self).verdict_eq_some_iff e

/-- After the `created` hook nothing keeps the template from being rendered. -/
theorem World.exists_rendered_created (hfinds : config.Finds (w.document document) root) :
    ∃ w₃, Run.renderComponent w.components.size (w₂.compiled w.components.size)
      (w₂.tell [.compiling]) = .ok () w₃ := by
  obtain ⟨_, _, hroot⟩ := hfinds
  obtain ⟨hrootlt, helement⟩ := Selector.exists_element_of_query hroot
  have hw₂ := honors_created hcustoms depth hcoherent hdocument hcreated
  obtain ⟨w₃, hrender, -, -⟩ := (hw₂.tell [.compiling]).exists_rendered
    (fun c hc => nomatch hc) hrootlt helement (w₂.proper_compiled w.components.size)
  exact ⟨w₃, hrender⟩

end

/-- **The ways in which making a component ends are these.** The document is any that is coherent, the
other components and all user code are arbitrary. A selector that does not parse or finds nothing is
refused before any hook has run; what strict options refuse is refused with its first offence in preorder,
the documents as the `created` hook left them; nothing else is refused, and no other fault arises than
those of the hooks. -/
theorem mount_ends {customs : Customs κ σ} (hcustoms : customs.Lawful) (depth : Nat)
    {w : World κ (Diary κ σ)} (hcoherent : ∀ other, (w.document other).Coherent)
    {document : DocumentId} (hdocument : document < w.documents.size) (config : Config κ) :
    MountEnds (customs.handle depth) document config w := by
  refine ⟨fun e he => Run.mount_eq_of_unparsable he,
    fun selector hselector hroot => Run.mount_eq_of_unmatched hselector hroot,
    fun root => w.documents_begun document root config, ?broken, ?refused, ?accepted, ?only⟩
  case broken =>
    intro root hfinds f w₂ hcreated
    exact ⟨_, Run.mount_of_broken hfinds hcreated, World.documents_releaseComponent _ _⟩
  case refused =>
    intro root hfinds w₂ hcreated hstrict e he
    have hverdict := World.verdict_created hcustoms hcoherent hdocument hcreated e
    exact ⟨_, Run.mount_of_verdict hfinds hcreated (hverdict.mpr ⟨hstrict, he⟩),
      World.documents_releaseComponent _ _⟩
  case accepted =>
    intro root hfinds w₂ hcreated hsound
    have hnone : w₂.verdict w.components.size = none := by
      rw [Option.eq_none_iff_forall_ne_some]
      intro e he
      obtain ⟨hstrict, hoffends⟩ :=
        (World.verdict_created hcustoms hcoherent hdocument hcreated e).mp he
      exact hsound hstrict e hoffends
    obtain ⟨w₃, hrender⟩ := World.exists_rendered_created hcustoms hcoherent hdocument hcreated hfinds
    refine ⟨w₃, hrender, fun w₄ hmounted => ?_, fun f w₄ hmounted => ?_⟩
    · exact ⟨_, Run.mount_of_returned hfinds hcreated hnone hrender hmounted, rfl⟩
    · exact ⟨_, Run.mount_of_failed hfinds hcreated hnone hrender hmounted,
        World.documents_releaseComponent _ _⟩
  case only =>
    intro e w' hrefused
    have hcases := Run.cases_of_refused (fun _ hfinds _ hcreated =>
      World.exists_rendered_created hcustoms hcoherent hdocument hcreated hfinds) hrefused
    refine hcases.imp_right fun hroot => hroot.imp_right ?_
    rintro ⟨root, w₂, hfinds, hcreated, hverdict, rfl⟩
    obtain ⟨hstrict, hoffends⟩ :=
      (World.verdict_created hcustoms hcoherent hdocument hcreated e).mp hverdict
    exact ⟨root, w₂, hfinds, hcreated, hstrict, hoffends, World.documents_releaseComponent _ _⟩

/-- A page on which more than one thing may be wrong: a text deep in a list, and a field behind it. -/
def orderWorld : World Unit (Diary Unit Unit) :=
  { World.ofHost ⟨(), [], []⟩ with
    documents := #[Document.reached [.appendMarkup Document.root
      "<main>{{ n }}<ul><li>{{ n }} of {{ m }}</li></ul><input v-model=k @click=' go '></main>"]] }

/-- A component on it. -/
def order (keys : List String) (methods : List (String × Unit)) : Config Unit where
  el := "main"
  data := keys.map fun key => (key, .int 1)
  methods := methods
  created := some ()
  mounted := none
  options := { strict := true }

/-- Its `created` hook marks the root. -/
def marking : Customs Unit Unit :=
  fun _ _ => .ask (.edit 0 (.setAttribute 2 "class" "busy")) fun _ => .done

/-- The marked document. -/
def marked : Document (Action Unit) :=
  (orderWorld.document 0).perform (.setAttribute 2 "class" "busy")

/-- The world that the `created` hook leaves. -/
def orderCreated (keys : List String) (methods : List (String × Unit)) :
    World Unit (Diary Unit Unit) :=
  let w := (orderWorld.begun 0 2 (order keys methods)).noteEntry
  (w.setDocument 0 ((w.document 0).perform (.setAttribute 2 "class" "busy"))).noteReturn

/-- The text deep in the list comes before the field, and the field's method before the key that it is
bound to, though the attributes stand in the other order. What is left of a refused component is the
mark; where nothing is missing it is made. -/
theorem mount_ends_order :
    (∃ w', Run.mount (marking.handle 1) 0 (order ["n"] []) orderWorld =
        .ok (.error (.undeclaredKey "m")) w' ∧ w'.documents = #[marked]) ∧
      (∃ w', Run.mount (marking.handle 1) 0 (order ["n", "m"] []) orderWorld =
        .ok (.error (.unknownMethod "go")) w' ∧ w'.documents = #[marked]) ∧
      (∃ w', Run.mount (marking.handle 1) 0 (order ["n", "m"] [("go", ())]) orderWorld =
        .ok (.error (.undeclaredKey "k")) w' ∧ w'.documents = #[marked]) ∧
      ∃ w', Run.mount (marking.handle 1) 0 (order ["n", "m", "k"] [("go", ())]) orderWorld =
        .ok (.ok 0) w' := by
  have hcustoms : marking.Lawful := fun _ _ => ⟨trivial, fun _ => trivial⟩
  have hcoherent : ∀ other, (orderWorld.document other).Coherent := by
    intro other
    cases other with
    | zero => exact Document.coherent_reached _
    | succ other => exact Document.coherent_empty
  have hfound : ((Selector.parse "main").toOption.bind fun selector =>
      selector.query (orderWorld.document 0)) = some 2 := by decide +kernel
  have hfinds : ∀ keys methods, (order keys methods).Finds (orderWorld.document 0) 2 := by
    intro keys methods
    obtain ⟨selector, hselector, hroot⟩ := Option.bind_eq_some_iff.mp hfound
    refine ⟨selector, ?_, hroot⟩
    show Selector.parse "main" = .ok selector
    cases hparse : Selector.parse "main" with
    | ok other =>
      rw [hparse] at hselector
      exact congrArg Except.ok (Option.some.inj hselector)
    | error e =>
      rw [hparse] at hselector
      cases hselector
  have hcreated : ∀ keys methods, Run.runHook (marking.handle 1) orderWorld.components.size
      (order keys methods).created (orderWorld.begun 0 2 (order keys methods)) =
        .ok () (orderCreated keys methods) := fun _ _ => rfl
  have hmarked : ∀ keys methods, (orderCreated keys methods).documents = #[marked] := by
    intro keys methods
    have hbegun := orderWorld.documents_begun 0 2 (order keys methods)
    show (orderWorld.begun 0 2 (order keys methods)).documents.setIfInBounds 0
      (((orderWorld.begun 0 2 (order keys methods)).documents.getD 0 .empty).perform _) = _
    rw [hbegun]
    rfl
  have hoffends : ∀ keys methods e, ((orderCreated keys methods).compiled 0).violation?
      (((order keys methods).data.map Prod.fst).contains ·) ((methods.map Prod.fst).contains ·) =
        some e ↔ ((orderCreated keys methods).compiled 0).Offends
          ((order keys methods).data.map Prod.fst) (methods.map Prod.fst) e := fun keys methods e =>
    Template.violation?_eq_some_iff (fun _ => List.contains_iff_mem)
      (fun _ => List.contains_iff_mem) _ e
  have hends : ∀ keys methods,
      MountEnds (marking.handle 1) 0 (order keys methods) orderWorld := fun keys methods =>
    mount_ends hcustoms 1 hcoherent (show 0 < 1 by decide) (order keys methods)
  have hrefused : ∀ keys methods e, ((orderCreated keys methods).compiled 0).violation?
      (((order keys methods).data.map Prod.fst).contains ·) ((methods.map Prod.fst).contains ·) =
        some e → ∃ w', Run.mount (marking.handle 1) 0 (order keys methods) orderWorld =
          .ok (.error e) w' ∧ w'.documents = #[marked] := by
    intro keys methods e he
    obtain ⟨w', hmount, hdocuments⟩ := (hends keys methods).refused 2 (hfinds keys methods) _
      (hcreated keys methods) rfl e ((hoffends keys methods e).mp he)
    exact ⟨w', hmount, hdocuments.trans (hmarked keys methods)⟩
  refine ⟨hrefused _ _ _ (by decide +kernel), hrefused _ _ _ (by decide +kernel),
    hrefused _ _ _ (by decide +kernel), ?_⟩
  have hnone : ((orderCreated ["n", "m", "k"] [("go", ())]).compiled 0).violation?
      (((order ["n", "m", "k"] [("go", ())]).data.map Prod.fst).contains ·)
        (([("go", ())].map Prod.fst).contains ·) = none := by decide +kernel
  obtain ⟨w₃, -, hmade, -⟩ := (hends _ _).accepted 2 (hfinds _ _) _ (hcreated _ _) fun _ e he => by
    rw [(hoffends ["n", "m", "k"] [("go", ())] e).mpr he] at hnone
    cases hnone
  obtain ⟨w', hmount, -⟩ := hmade w₃ rfl
  exact ⟨w', hmount⟩

end BoundView
