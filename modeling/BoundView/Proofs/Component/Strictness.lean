import BoundView.Proofs.Component.Constancy
import BoundView.Proofs.Rendering.Complete
import BoundView.Proofs.Rendering.Filtered

/-!
# Strict components

Under strict options a component is refused before anything is rendered when its template names a key
that is not declared or a method that is not supplied. The check reads the template; what would be missing
later would be missed in other places: in resolving a text, in following a key to a bound element, in
calling a method, in storing an edited value. Here both are brought together. The check finds nothing
exactly where the template is complete, the keys and methods of a component are part of its charter, and
so a component that passed the check lacks nothing in any world that user code ever finds.

Main statements: `World.Meets.serves`, a complete template is served wherever the charter is met, and
`strict_mount`, strict options are sound and complete.
-/

namespace BoundView

open BoundView.Dom (Document NodeId)
open BoundView.World (Honors)

variable {κ σ : Type}

theorem isSome_lookup_reverse {β : Type} (entries : List (String × β)) (key : String) :
    (entries.reverse.lookup key).isSome = true ↔ key ∈ entries.map Prod.fst := by
  rw [Option.isSome_iff_ne_none, Ne, List.lookup_eq_none_iff]
  simp

theorem contains_makeStore (w : World κ σ) (data : List (String × Value)) (key : String) :
    (w.makeStore data).1.contains key = true ↔ key ∈ data.map Prod.fst := by
  rw [← isSome_lookup_reverse, ← (makeStore_spec w data).value]
  unfold World.value? Store.contains
  rw [Option.isSome_map]

/-! ## Rendering -/

/-- **What a rendered node hears**: the methods of its event attributes, and the edits of the key that it
is bound to. -/
theorem Template.action_of_mount {context : RenderContext κ} {d : Document κ} {root : NodeId}
    {t : Template} (hbare : t.Bare) (hfault : (t.mount context d root).fault = none) {p : Part}
    (hp : p ∈ (t.mount context d root).template.preorder) {node : NodeId}
    (hnode : p.rendered = some node) {listener : Dom.Listener κ}
    (hlistener : listener ∈ (t.mount context d root).document.listeners node) :
    (∃ event ∈ p.events, listener.action = context.binder.method event.2) ∨
      ∃ key, p.modelKey? = some key ∧ listener.action = context.binder.model key := by
  obtain ⟨other, seed, first, hother, hseed, hlisteners⟩ :=
    (mount_displays hbare hfault).2 p hp (Part.isRendered_of_rendered hnode)
  obtain rfl : other = node := Option.some.inj (hother.symm.trans hnode)
  have hborn : (listener.type, listener.action) ∈ seed.listeners := by
    rw [hlisteners] at hlistener
    rw [← Document.map_numbered first seed.listeners]
    exact List.mem_map_of_mem hlistener
  cases p with
  | comment raw => cases hnode
  | text raw rendered =>
    cases hseed
    cases hborn
  | element tag attributes rendered =>
    cases hseed
    rcases List.mem_append.mp hborn with hborn | hborn
    · obtain ⟨event, hevent, he⟩ := List.mem_map.mp hborn
      exact .inl ⟨event, hevent, (Prod.mk.inj he).2.symm⟩
    · obtain ⟨key, hkey, he⟩ := List.mem_map.mp hborn
      exact .inr ⟨key, Option.mem_toList.mp hkey, (Prod.mk.inj he).2.symm⟩

namespace World

/-- **What rendering a component's template gives.** -/
def rendering (w : World κ σ) (id : ComponentId) (t : Template) : Template.Rendered (Action κ) :=
  t.mount (w.renderContext id) (w.document (w.component id).document) (w.component id).root

/-- The world once a component is rendered, traces aside. -/
def withRendering (w : World κ σ) (id : ComponentId) (t : Template) : World κ σ :=
  (w.setDocument (w.component id).document (w.rendering id t).document).modifyComponent id
    fun c => { c with template := some (w.rendering id t).template }

/-- What strict options find wrong with a component's template. -/
def verdict (w : World κ σ) (id : ComponentId) : Option Component.Error :=
  if (w.component id).options.strict then
    (w.compiled id).violation? (w.component id).store.contains
      fun name => ((w.component id).method? name).isSome
  else none

variable {note : σ → Prop} {claims : List (Claim κ)} {id : ComponentId} {charter : Component κ}
  {d : Document (Action κ)} {w : World κ σ}

/-- **Rendering gives the charter its template**, and leaves the others what they are. -/
theorem Honors.withRendering (h : w.Honors note (⟨id, charter, d⟩ :: claims))
    (hothers : ∀ c ∈ claims, c.id ≠ id) {t : Template} (ht : t.Proper) :
    (w.withRendering id t).Honors note
      (⟨id, { charter with template := some (w.rendering id t).template }, d⟩ :: claims) := by
  have hset : (w.setDocument (w.component id).document (w.rendering id t).document).Honors note
      (⟨id, charter, d⟩ :: claims) :=
    h.setDocument (t.grows_mount _ _ _) fun hcoherent =>
      Template.coherent_mount hcoherent (ht.sound _)
  obtain ⟨hmet, hmets⟩ := List.forall_mem_cons.mp hset.met
  refine { hset with met := List.forall_mem_cons.mpr ⟨?_, fun c hc => ?_⟩ }
  · refine { hmet with there := Nat.lt_of_lt_of_eq hmet.there Array.size_modify.symm, same := ?_ }
    have hcharter : charter = ((w.setDocument (w.component id).document
        (w.rendering id t).document).component id).charter := hmet.same.symm
    unfold World.withRendering
    rw [component_modifyComponent_self hmet.there, hcharter]
    rfl
  · exact (hmets c hc).modifyOther (hothers c hc) _

/-- The document of a component that was just rendered. -/
theorem Meets.document_withRendering (h : w.Meets ⟨id, charter, d⟩) (t : Template) :
    (w.withRendering id t).document charter.document = (w.rendering id t).document := by
  have hdocument : (w.component id).document = charter.document := h.document
  rw [← hdocument]
  exact document_setDocument (hdocument ▸ h.document_lt) _

/-- **Rendering a component does not fail** on a root that was an element when it was made. -/
theorem Honors.fault_rendering (h : w.Honors note (⟨id, charter, d⟩ :: claims))
    (hroot : charter.root < d.size) (helement : ∃ e, d.content charter.root = .element e)
    (t : Template) : (w.rendering id t).fault = none := by
  obtain ⟨e, he⟩ := helement
  have hmet : w.Meets ⟨id, charter, d⟩ := h.met _ List.mem_cons_self
  unfold rendering
  rw [hmet.document, hmet.root]
  refine t.mount_fault_eq_none _ (h.coherent _) (hmet.grown.lt_size hroot) ?_
  have hkind := hmet.grown.kind charter.root hroot
  rw [he] at hkind
  obtain ⟨e', he'⟩ := eq_element_of_kind hkind
  rw [he']
  rfl

end World

namespace Run

variable {note : σ → Prop} {id : ComponentId} {w : World κ σ}

/-- **Rendering a component** returns where that does not fail, and only there. -/
theorem renderComponent_cases (w : World κ σ) (id : ComponentId) (t : Template) :
    Triple (· = w) (renderComponent id t)
      (fun _ w' => (w.rendering id t).fault = none ∧
        ∃ traces, w' = { w.withRendering id t with traces })
      fun _ => (w.rendering id t).fault ≠ none := by
  have hstep : ∀ (w : World κ σ) (f : World κ σ → World κ σ) {E : World κ σ → Prop},
      Triple (· = w) (modify f : Run κ σ Unit) (fun _ w' => w' = f w) E :=
    fun w f _ => Triple.modify fun _ he => congrArg f he
  refine Triple.bind (hstep _ _) fun _ => Triple.get_bind fun w₁ he => ?_
  subst he
  refine Triple.bind (hstep _ _) fun _ => Triple.bind (hstep _ _) fun _ => ?_
  refine Triple.bind (hstep _ _) fun _ => ?_
  split
  · rename_i f hsome
    exact Triple.throw fun _ _ hnone => Option.some_ne_none f (hsome.symm.trans hnone)
  · rename_i hnone
    refine Triple.pure ?_
    rintro _ rfl
    exact ⟨hnone, _, rfl⟩

theorem renderComponent_eq {t : Template} (hfault : (w.rendering id t).fault = none) :
    Triple (· = w) (renderComponent id t)
      (fun _ w' => ∃ traces, w' = { w.withRendering id t with traces }) fun _ => False :=
  (renderComponent_cases w id t).weaken (fun _ h => h) (fun _ _ h => h.2) fun _ h => h hfault

section

variable {handle : Handle κ σ} {document : DocumentId} {config : Config κ}

/-- **What making a component leaves to be done** once its root is found. -/
theorem mount_eq {selector : Selector} (hselector : Selector.parse config.el = .ok selector)
    {root : NodeId} (hroot : selector.query (w.document document) = some root) :
    mount handle document config w =
      match bringUp handle w.components.size config
          ((w.tell [.mounting config.el]).addComponent document root config) with
      | .ok (.ok ()) w' => .ok (.ok w.components.size) w'
      | .ok (.error e) w' => .ok (.error e) (w'.releaseComponent w.components.size)
      | .error f w' => .error f (w'.releaseComponent w.components.size) := by
  have hread : (get : Run κ σ (World κ σ)) (w.tell [.mounting config.el]) =
      .ok (w.tell [.mounting config.el]) (w.tell [.mounting config.el]) := rfl
  have hquery : selector.query ((w.tell [.mounting config.el]).document document) = some root := hroot
  unfold mount
  rw [bind_ok (show (tell [.mounting config.el] : Run κ σ Unit) w = .ok () _ from rfl), hselector]
  dsimp only
  rw [bind_ok hread, hquery]
  dsimp only
  rw [bind_ok hread, bind_ok (show (modify (·.addComponent document root config) : Run κ σ Unit)
    (w.tell [.mounting config.el]) = .ok () _ from rfl)]
  cases hbring : bringUp handle w.components.size config
      ((w.tell [.mounting config.el]).addComponent document root config) with
  | ok result w' =>
    cases result with
    | ok _ => exact tryCatch_ok ((bind_ok hbring).trans rfl)
    | error e => exact tryCatch_ok ((bind_ok hbring).trans rfl)
  | error f w' => exact (tryCatch_error (bind_error hbring)).trans rfl

/-- **What bringing a component up leaves to be done** once its `created` hook has returned. -/
theorem bringUp_eq {w₂ : World κ σ} (hcreated : runHook handle id config.created w = .ok () w₂) :
    bringUp handle id config w =
      match w₂.verdict id with
      | some e => .ok (.error e) (w₂.tell [.compiling])
      | none => (do
          renderComponent id (w₂.compiled id)
          runHook handle id config.mounted
          tell [.mounted (w₂.component id).store.keys.length]
          pure (.ok ()) : Run κ σ (Except Component.Error Unit)) (w₂.tell [.compiling]) := by
  have hread : (get : Run κ σ (World κ σ)) (w₂.tell [.compiling]) =
      .ok (w₂.tell [.compiling]) (w₂.tell [.compiling]) := rfl
  unfold bringUp
  rw [bind_ok hcreated, bind_ok (show (tell [.compiling] : Run κ σ Unit) w₂ = .ok () _ from rfl)]
  rw [bind_ok hread]
  dsimp only
  rw [bind_ok hread]
  show (match w₂.verdict id with
    | some e => pure (.error e)
    | none => do
      renderComponent id (w₂.compiled id)
      runHook handle id config.mounted
      tell [.mounted (w₂.component id).store.keys.length]
      pure (.ok ()) : Run κ σ (Except Component.Error Unit)) (w₂.tell [.compiling]) = _
  cases w₂.verdict id with
  | some e => rfl
  | none => rfl

end

end Run

/-! ## What a served component answers -/

namespace World

/-- **A listener that reaches what it was installed for**: that of a method finds the method and runs it,
that of a bound element stores the live value of the event's target, and neither tells of anything
unknown. -/
def Answers (v : World κ σ) (id : ComponentId) : Action κ → Prop
  | .handler _ => False
  | .method other name => other = id ∧ ∃ run, (v.component id).method? name = some run ∧
      ∀ (handle : Handle κ σ) event, Run.runMethod handle id name event v =
        Run.holding id (handle run (.method id event)) v
  | .model other key => other = id ∧ ∃ cell, (v.component id).store.cell? key = some cell ∧
      ∀ (handle : Handle κ σ) event, Run.runModel handle id key event v = (do
        let value ← Run.readDocument (v.component id).document (·.value (v.event event).target)
        Run.set handle cell (.str (value.getD ""))) v

/-- **A component that lacks nothing**: its template is this one, every text resolves without a missing
key, deriving any node anew warns of nothing, and the listeners that its nodes were born with in this
document are answered. -/
structure Serves (v : World κ σ) (id : ComponentId) (t : Template) (d : Document (Action κ)) : Prop where
  template : (v.component id).template = some t
  resolved : ∀ raw node, Part.text raw node ∈ t.preorder →
    (Interpolation.resolve (v.lookup (v.component id).store) (v.component id).options.missingKey
      raw).missing = []
  silent : ∀ key inputs, ∀ a ∈ t.affected key inputs,
    a.traces (v.lookup (v.component id).store) (v.component id).options.missingKey = []
  answered : ∀ node ∈ t.handles, ∀ listener ∈ d.listeners node, v.Answers id listener.action

variable {v : World κ σ} {id : ComponentId}

theorem answers_method {name : String} {run : κ}
    (hmethod : (v.component id).method? name = some run) : v.Answers id (.method id name) := by
  refine ⟨rfl, run, hmethod, fun handle event => ?_⟩
  have hcall : Run.call handle id name event v =
      (Run.holding id (handle run (.method id event)) >>= fun _ => pure (.ok ())) v := by
    unfold Run.call
    rw [Run.bind_ok (show (get : Run κ σ (World κ σ)) v = .ok v v from rfl), hmethod]
  unfold Run.runMethod
  cases hheld : Run.holding id (handle run (.method id event)) v with
  | ok _ w =>
    rw [Run.bind_ok hheld] at hcall
    rw [Run.bind_ok hcall]
    rfl
  | error f w =>
    rw [Run.bind_error hheld] at hcall
    rw [Run.bind_error hcall]

theorem answers_model {key : String} {cell : CellId}
    (hcell : (v.component id).store.cell? key = some cell) : v.Answers id (.model id key) := by
  refine ⟨rfl, cell, hcell, fun handle event => ?_⟩
  have hwrite : ∀ value, Run.write handle id key value v =
      (Run.set handle cell value >>= fun _ => pure (.ok ())) v := by
    intro value
    unfold Run.write Run.setKey
    rw [Run.bind_ok (show (get : Run κ σ (World κ σ)) v = .ok v v from rfl), hcell]
  unfold Run.runModel
  rw [Run.bind_ok (show (get : Run κ σ (World κ σ)) v = .ok v v from rfl)]
  cases hread : (v.document (v.component id).document).value (v.event event).target with
  | error f =>
    have hfails := Run.readDocument_error (·.value (v.event event).target) hread
    rw [Run.bind_error hfails, Run.bind_error hfails]
  | ok value =>
    have hreads := Run.readDocument_ok (·.value (v.event event).target) hread
    rw [Run.bind_ok hreads, Run.bind_ok hreads]
    cases hset : Run.set handle cell (.str (value.getD "")) v with
    | ok _ w => exact (Run.bind_ok ((hwrite _).trans (Run.bind_ok hset))).trans rfl
    | error f w => exact Run.bind_error ((hwrite _).trans (Run.bind_error hset))

/-- **A component with a complete template is served** in every world where its charter is met. -/
theorem Meets.serves {charter : Component κ} {d e : Document (Action κ)}
    (h : v.Meets ⟨id, charter, d⟩) {t : Template} (ht : charter.template = some t)
    {keys methods : List String} (hcomplete : t.Complete keys methods)
    (hkeys : ∀ key ∈ keys, charter.store.contains key = true)
    (hmethods : ∀ name ∈ methods, (charter.method? name).isSome = true)
    (hborn : ∀ p ∈ t.preorder, ∀ node, p.rendered = some node → ∀ listener ∈ e.listeners node,
      (∃ event ∈ p.events, listener.action = .method id (Text.trimmed event.2)) ∨
        ∃ key, p.modelKey? = some key ∧ listener.action = .model id key) :
    v.Serves id t e := by
  have hlookup : ∀ key ∈ keys, (v.lookup (v.component id).store key).isSome = true := by
    intro key hkey
    have hdeclared := hkeys key hkey
    unfold Store.contains at hdeclared
    unfold lookup value?
    rw [h.store, Option.isSome_map, Option.isSome_map]
    exact hdeclared
  refine ⟨h.template.trans ht, ?_, ?_, ?_⟩
  · exact fun raw node hp => hcomplete.resolve hlookup hp _
  · intro key inputs a ha
    obtain ⟨p, hp, hap⟩ := List.mem_flatMap.mp ha
    rw [Part.traces_of_mem_affected hap]
    exact hcomplete.traces hlookup hp _
  · intro node hnode listener hlistener
    obtain ⟨p, hp, hrendered⟩ := Template.mem_handles.mp hnode
    rcases hborn p hp node hrendered listener hlistener with ⟨event, hevent, he⟩ | ⟨key, hkey, he⟩
    · obtain ⟨run, hrun⟩ :=
        Option.isSome_iff_exists.mp (hmethods _ (hcomplete.called p hp event hevent))
      have hmethod : (v.component id).method? (Text.trimmed event.2) = some run := by
        unfold Component.method?
        rw [h.methods]
        exact hrun
      rw [he]
      exact answers_method hmethod
    · obtain ⟨cell, hcell⟩ := Option.isSome_iff_exists.mp (hkeys key (hcomplete.bound p hp key hkey))
      rw [he]
      exact answers_model (h.store ▸ hcell)

end World

theorem World.proper_compiled (w : World κ σ) (id : ComponentId) : (w.compiled id).Proper :=
  Template.proper_ofContents _

/-- **A component is rendered** on a root that was an element when it was made. -/
theorem World.Honors.exists_rendered {note : σ → Prop} {claims : List (Claim κ)} {w : World κ σ}
    {id : ComponentId} {charter : Component κ} {d : Document (Action κ)}
    (h : w.Honors note (⟨id, charter, d⟩ :: claims)) (hothers : ∀ c ∈ claims, c.id ≠ id)
    (hroot : charter.root < d.size) (helement : ∃ e, d.content charter.root = .element e)
    {t : Template} (ht : t.Proper) :
    ∃ w', Run.renderComponent id t w = .ok () w' ∧
      w'.Honors note
        (⟨id, { charter with template := some (w.rendering id t).template }, d⟩ :: claims) ∧
        w'.document charter.document = (w.rendering id t).document := by
  obtain ⟨_, _, hrender, traces, rfl⟩ :=
    (Run.renderComponent_eq (h.fault_rendering hroot helement t)).exists_ok rfl
  exact ⟨_, hrender, (h.withRendering hothers ht).withTraces traces,
    (h.met _ List.mem_cons_self).document_withRendering t⟩

/-! ## Strict options -/

/-- The verdict of strict options is that the template is complete. -/
theorem World.Meets.verdict_eq_none_iff {w w₀ : World κ σ} {id : ComponentId}
    {d : Document (Action κ)} {document : DocumentId} {root : NodeId} {config : Config κ}
    (h : w.Meets ⟨id, (w₀.added document root config).charter, d⟩)
    (hstrict : config.options.strict = true) :
    w.verdict id = none ↔
      (w.compiled id).Complete (config.data.map Prod.fst) (config.methods.map Prod.fst) := by
  have hoptions : (w.component id).options.strict = true := by
    rw [h.options]
    exact hstrict
  unfold World.verdict
  rw [if_pos hoptions]
  refine Template.violation?_eq_none_iff (fun key => ?_) (fun name => ?_) _
  · rw [h.store]
    exact contains_makeStore w₀ config.data key
  · unfold Component.method?
    rw [h.methods]
    exact isSome_lookup_reverse config.methods name

section

variable {customs : Customs κ σ} (hcustoms : customs.Lawful) (depth : Nat) {w w₂ : World κ (Diary κ σ)}
  (hcoherent : ∀ other, (w.document other).Coherent) {document : DocumentId}
  (hdocument : document < w.documents.size) {config : Config κ} {root : NodeId}
  (hcreated : Run.runHook (customs.handle depth) w.components.size config.created
    ((w.tell [.mounting config.el]).addComponent document root config) = .ok () w₂)

include hcustoms hcoherent hdocument hcreated

/-- **The world that the `created` hook leaves** honors what was asked for. -/
theorem honors_created : w₂.Honors (fun _ => True)
    [⟨w.components.size, ((w.tell [.mounting config.el]).added document root config).charter,
      w.document document⟩] := by
  have hstart : (w.tell [.mounting config.el]).Honors
      (w.host.Follows (Honors (fun _ => True) [⟨w.components.size,
        ((w.tell [.mounting config.el]).added document root config).charter,
        w.document document⟩])) [] :=
    ⟨Diary.Follows.refl w.host _, hcoherent, fun c hc => nomatch hc⟩
  have hkept := (Run.keeps_runHook (Run.keeps_handle hcustoms depth) _ config.created).of_ok
    (hstart.addComponent hdocument root config) hcreated
  exact { hkept with noted := trivial }

end

/-- **All worlds that user code finds honor a charter** once one does, through a hook and whatever comes
later. -/
theorem World.Honors.throughout {customs : Customs κ σ} (hcustoms : customs.Lawful) {depth : Nat}
    {w w' : World κ (Diary κ σ)} {claims : List (Claim κ)} (h : w.Honors (fun _ => True) claims)
    {id : ComponentId} {hook : Option κ}
    (hhook : Run.runHook (customs.handle depth) id hook w = .ok () w') (traces : List Trace)
    {later : Conduct κ σ} (hlater : later.Lawful) {v : World κ σ}
    (hv : v ∈ (Run.left (later.run (customs.handle depth)) (w'.tell traces)).seen ::
      (Run.left (later.run (customs.handle depth)) (w'.tell traces)).host.since w.host) :
    v.Honors (fun _ => True) claims := by
  have hstart : w.Honors (w.host.Follows (Honors (fun _ => True) claims)) claims :=
    { h with noted := Diary.Follows.refl w.host _ }
  have hhandle : ∀ run occasion, Run.Keeps
      (Honors (w.host.Follows (Honors (fun _ => True) claims)) claims)
      (customs.handle depth run occasion) := Run.keeps_handle hcustoms depth
  have hleft := (Run.keeps_run hhandle hlater).left
    (((Run.keeps_runHook hhandle id hook).of_ok hstart hhook).tell traces)
  rcases List.mem_cons.mp hv with rfl | hv
  · exact hleft.seen
  · exact hleft.noted.found v hv

/-- **Strict options are sound and complete.** A component is made under strict options, its selector
finds a root, and its `created` hook, if there is one, returns; the worlds around it, the other components
and all user code are arbitrary. If its template names a key that is not declared or a method that is not
supplied, it is refused. Otherwise it is rendered without a fault, and it is made if and only if its
`mounted` hook, if there is one, returns; and then, in every world that user code has found since, whatever
it does in its hooks and afterwards, and in the world at the end, the component lacks nothing. -/
theorem strict_mount {customs : Customs κ σ} (hcustoms : customs.Lawful) (depth : Nat)
    {w w₂ : World κ (Diary κ σ)} (hcoherent : ∀ other, (w.document other).Coherent)
    {document : DocumentId} (hdocument : document < w.documents.size) {config : Config κ}
    (hstrict : config.options.strict = true) {selector : Selector}
    (hselector : Selector.parse config.el = .ok selector) {root : NodeId}
    (hroot : selector.query (w.document document) = some root)
    (hcreated : Run.runHook (customs.handle depth) w.components.size config.created
      ((w.tell [.mounting config.el]).addComponent document root config) = .ok () w₂) :
    (¬ (w₂.compiled w.components.size).Complete (config.data.map Prod.fst)
        (config.methods.map Prod.fst) →
      ∃ e w', Run.mount (customs.handle depth) document config w = .ok (.error e) w') ∧
    ((w₂.compiled w.components.size).Complete (config.data.map Prod.fst)
        (config.methods.map Prod.fst) →
      ∃ w₃ base, Run.renderComponent w.components.size (w₂.compiled w.components.size)
          (w₂.tell [.compiling]) = .ok () w₃ ∧
        ((∃ w', Run.mount (customs.handle depth) document config w = .ok (.ok w.components.size) w') ↔
          ∃ w₄, Run.runHook (customs.handle depth) w.components.size config.mounted w₃ = .ok () w₄) ∧
        ∀ w', Run.mount (customs.handle depth) document config w = .ok (.ok w.components.size) w' →
          ∀ later : Conduct κ σ, later.Lawful →
            ∀ v ∈ (Run.left (later.run (customs.handle depth)) w').seen ::
                (Run.left (later.run (customs.handle depth)) w').host.since w₃.host,
              v.Serves w.components.size ((w₂.compiled w.components.size).place base)
                (w₃.document document)) := by
  have hw₂ := honors_created hcustoms depth hcoherent hdocument hcreated
  have hverdict := (hw₂.met _ List.mem_cons_self).verdict_eq_none_iff hstrict
  have hmount : Run.mount (customs.handle depth) document config w = _ :=
    Run.mount_eq hselector hroot
  rw [Run.bringUp_eq hcreated] at hmount
  constructor
  · intro hincomplete
    cases hfound : w₂.verdict w.components.size with
    | none => exact absurd (hverdict.mp hfound) hincomplete
    | some e =>
      rw [hfound] at hmount
      exact ⟨e, _, hmount⟩
  · intro hcomplete
    rw [hverdict.mpr hcomplete] at hmount
    obtain ⟨hrootlt, helement⟩ := Selector.exists_element_of_query hroot
    obtain ⟨w₃, hrender, hw₃, hdisplayed⟩ := (hw₂.tell [.compiling]).exists_rendered
      (fun c hc => nomatch hc) hrootlt helement (w₂.proper_compiled w.components.size)
    have hmade : ∀ w', Run.mount (customs.handle depth) document config w =
        .ok (.ok w.components.size) w' ↔
          ∃ w₄, Run.runHook (customs.handle depth) w.components.size config.mounted w₃ = .ok () w₄ ∧
            w' = w₄.tell [.mounted (w₂.component w.components.size).store.keys.length] := by
      intro w'
      dsimp only at hmount
      rw [Run.bind_ok hrender] at hmount
      cases hhook : Run.runHook (customs.handle depth) w.components.size config.mounted w₃ with
      | ok _ w₄ =>
        rw [Run.bind_ok hhook] at hmount
        rw [hmount]
        constructor
        · rintro ⟨⟩
          exact ⟨w₄, rfl, rfl⟩
        · rintro ⟨_, ⟨⟩, rfl⟩
          rfl
      | error f w₄ =>
        rw [Run.bind_error hhook] at hmount
        rw [hmount]
        refine iff_of_false (fun he => by cases he) ?_
        rintro ⟨_, he, _⟩
        cases he
    refine ⟨w₃, ((w₂.tell [.compiling]).document
      ((w₂.tell [.compiling]).component w.components.size).document).size + 1, hrender, ?_, ?_⟩
    · simp only [hmade]
      exact ⟨fun ⟨_, w₄, h, _⟩ => ⟨w₄, h⟩, fun ⟨w₄, h⟩ => ⟨_, w₄, h, rfl⟩⟩
    · intro w' hw' later hlater v hv
      obtain ⟨w₄, hhook, rfl⟩ := (hmade w').mp hw'
      have hplaced := Template.template_mount ((w₂.tell [.compiling]).renderContext w.components.size)
        ((w₂.tell [.compiling]).document
          ((w₂.tell [.compiling]).component w.components.size).document)
        ((w₂.tell [.compiling]).component w.components.size).root (w₂.compiled w.components.size)
      refine ((hw₃.throughout hcustoms hhook _ hlater hv).met _ List.mem_cons_self).serves
        (congrArg some hplaced) (hcomplete.place _) ?_ ?_ ?_
      · exact fun key hkey =>
          (contains_makeStore (w.tell [.mounting config.el]) config.data key).mpr hkey
      · exact fun name hname => (isSome_lookup_reverse config.methods name).mpr hname
      · intro p hp node hnode listener hlistener
        rw [← hplaced] at hp
        refine Template.action_of_mount (Template.bare_ofContents _)
          ((hw₂.tell [.compiling]).fault_rendering hrootlt helement _) hp hnode ?_
        rw [show document = ((w.tell [.mounting config.el]).added document root config).charter.document
          from rfl, hdisplayed] at hlistener
        exact hlistener

/-- A page that names a key twice and a method once. -/
def formPage : String := "<form id=app><input v-model=n><button @click=' go '>{{ n }}</button></form>"

/-- A component on it. -/
def form (methods : List (String × Unit)) : Config Unit where
  el := "#app"
  data := [("n", .int 1)]
  methods := methods
  created := some ()
  mounted := none
  options := { strict := true }

/-- A world with nothing but the page. -/
def formWorld : World Unit (Diary Unit Unit) :=
  { World.ofHost ⟨(), [], []⟩ with
    documents := #[(Document.parse formPage : Except _ (Document (Action Unit))).toOption.getD .empty] }

theorem coherent_formWorld (other : DocumentId) : (formWorld.document other).Coherent := by
  have hfirst : ((Document.parse formPage : Except _ (Document (Action Unit))).toOption.getD
      .empty).Coherent := by
    cases hparse : (Document.parse formPage : Except _ (Document (Action Unit))) with
    | ok d => exact Document.coherent_of_parse hparse
    | error e => exact Document.coherent_empty
  cases other with
  | zero => exact hfirst
  | succ other => exact Document.coherent_empty

/-- The world that the `created` hook leaves. -/
def formCreated (methods : List (String × Unit)) : World Unit (Diary Unit Unit) :=
  ((formWorld.tell [.mounting "#app"]).addComponent 0 2 (form methods)).noteEntry

/-- The component's method is missing, and it is refused; or nothing is missing, and it is made and
served. -/
theorem strict_mount_form :
    (∃ e w', Run.mount (Customs.handle (fun _ _ => .done) 1) 0 (form []) formWorld =
      .ok (.error e) w') ∧
    ∃ (w₃ : World Unit (Diary Unit Unit)) (base : Nat) (w' : World Unit (Diary Unit Unit)),
      Run.mount (Customs.handle (fun _ _ => .done) 1) 0 (form [("go", ())]) formWorld =
        .ok (.ok 0) w' ∧
      ∀ later : Conduct Unit Unit, later.Lawful →
        ∀ v ∈ (Run.left (later.run (Customs.handle (fun _ _ => .done) 1)) w').seen ::
            (Run.left (later.run (Customs.handle (fun _ _ => .done) 1)) w').host.since w₃.host,
          v.Serves 0 (((formCreated [("go", ())]).compiled 0).place base) (w₃.document 0) := by
  have hcustoms : Customs.Lawful (fun _ _ => .done : Customs Unit Unit) := fun _ _ => trivial
  have hfound : ((Selector.parse "#app").toOption.bind fun selector =>
      selector.query (formWorld.document 0)) = some 2 := by decide +kernel
  obtain ⟨selector, hselector, hroot⟩ := Option.bind_eq_some_iff.mp hfound
  have hparsed : Selector.parse "#app" = .ok selector := by
    cases hparse : Selector.parse "#app" with
    | ok other =>
      rw [hparse] at hselector
      exact congrArg Except.ok (Option.some.inj hselector)
    | error e =>
      rw [hparse] at hselector
      cases hselector
  have hcomplete : ∀ methods, ((formCreated methods).compiled 0).violation? (["n"].contains ·)
      ((methods.map Prod.fst).contains ·) = none ↔
        ((formCreated methods).compiled 0).Complete ["n"] (methods.map Prod.fst) :=
    fun methods => Template.violation?_eq_none_iff (fun _ => List.contains_iff_mem)
      (fun _ => List.contains_iff_mem) _
  have hcreated : ∀ methods, Run.runHook (Customs.handle (fun _ _ => .done) 1)
      formWorld.components.size (form methods).created
        ((formWorld.tell [.mounting (form methods).el]).addComponent 0 2 (form methods)) =
          .ok () (formCreated methods) := fun _ => rfl
  have hstrict : ∀ methods, (form methods).options.strict = true := fun _ => rfl
  constructor
  · have hrefused := strict_mount hcustoms 1 coherent_formWorld (show 0 < 1 by decide) (hstrict [])
      hparsed hroot (hcreated [])
    refine hrefused.1 fun hcontrary => ?_
    exact absurd ((hcomplete []).mpr hcontrary) (by decide +kernel)
  · have haccepted := strict_mount hcustoms 1 coherent_formWorld (show 0 < 1 by decide)
      (hstrict [("go", ())]) hparsed hroot (hcreated [("go", ())])
    obtain ⟨w₃, base, _, hmade, hserved⟩ :=
      haccepted.2 ((hcomplete [("go", ())]).mp (by decide +kernel))
    obtain ⟨w', hw'⟩ := hmade.mpr ⟨w₃, rfl⟩
    exact ⟨w₃, base, w', hw', hserved w' hw'⟩

end BoundView
