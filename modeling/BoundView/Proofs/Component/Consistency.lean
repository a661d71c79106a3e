import BoundView.Proofs.Component.Faithful

/-!
# The document stays consistent with the store

In a session every handler finds the document consistent with the store when it is entered, however
deep the requests that led to it are nested in one another, and every outermost request leaves it so.
The one exception is the live value of a node whose edit by a person is still under way; an outermost
request leaves no such edit behind.

A component stands when a faithful contract is kept and nothing runs. Making a component makes it
stand unless something is refused, and requests keep it standing.

Main statement: `settled_throughout`.
-/

namespace BoundView

variable {κ σ : Type}

/-- **A component stands** when a faithful contract with a template is kept and nothing runs. -/
def Stands (id : ComponentId) (w : World κ (Diary κ σ)) : Prop :=
  ∃ c : Contract κ (Diary κ σ), c.Faithful ∧ c.id = id ∧ c.template.isSome = true ∧ c.Met .idle w

theorem Stands.tell {id : ComponentId} {w : World κ (Diary κ σ)} (h : Stands id w)
    (traces : List Trace) : Stands id (w.tell traces) := by
  obtain ⟨c, hc, hid, htemplate, hw⟩ := h
  exact ⟨c, hc, hid, htemplate, hw.tell traces⟩

theorem Stands.noteReturn {id : ComponentId} {w : World κ (Diary κ σ)} (h : Stands id w) :
    Stands id w.noteReturn := by
  obtain ⟨c, hc, hid, htemplate, hw⟩ := h
  exact ⟨c, hc, hid, htemplate, hw.noteReturn hc htemplate⟩

theorem Stands.settled {id : ComponentId} {w : World κ (Diary κ σ)} (h : Stands id w) :
    w.host.Settled id := by
  obtain ⟨c, hc, rfl, _, hw⟩ := h
  exact hc.noted ▸ hw.noted

/-- **A world in which no component was made.** -/
structure Unmade (w : World κ (Diary κ σ)) : Prop where
  components : w.components.size = 0
  subscribers : w.subscribers.size = 0
  settled : w.host.Settled 0

theorem Unmade.tell {w : World κ (Diary κ σ)} (h : Unmade w) (traces : List Trace) :
    Unmade (w.tell traces) := { h with }

namespace Run

open Contract

variable {c : Contract κ (Diary κ σ)} (program : Program κ σ) (depth : Nat)

/-- A fault leaves a settled diary. -/
theorem fallen_eq (hc : c.Faithful) : c.Fallen = fun w => w.host.Settled c.id := by
  unfold Contract.Fallen
  rw [hc.failing]

theorem runHook_keeps (hc : c.Faithful) (hook : Option κ) :
    Triple (c.Met .idle) (runHook (program.handle c.id depth) c.id hook) (fun _ => c.Met .idle)
      c.Fallen := by
  cases hook with
  | none => exact Triple.pure fun _ h => h
  | some run => exact handle_keeps hc program depth .idle run (.hook c.id)

/-- **What keeps every faithful contract keeps a component standing.** -/
theorem stands_of_keeps {α : Type} {id : ComponentId} {m : Run κ (Diary κ σ) α}
    (h : ∀ c : Contract κ (Diary κ σ), c.Faithful → c.id = id → c.template.isSome = true →
      Triple (c.Met .idle) m (fun _ => c.Met .idle) c.Fallen) :
    Triple (Stands id) m (fun _ => Stands id) fun w => w.host.Settled id := by
  rintro w ⟨c, hc, rfl, htemplate, hw⟩
  refine (h c hc rfl htemplate w hw).weaken (fun _ w' hw' => ⟨c, hc, rfl, htemplate, hw'⟩) ?_
  intro w' hw'
  exact hc.failing ▸ hw'

/-- **Rendering makes a component stand.** -/
theorem renderComponent_stands (hc : c.Faithful) {t : Template} (hbare : t.Bare) :
    Triple (c.Met .idle) (renderComponent c.id t) (fun _ => Stands c.id) c.Fallen := by
  refine renderComponent_spec (fun w h _ => h.fallen hc.toLasting) (fun w h hfault => ?_)
    fun w traces h => h.tell traces
  obtain ⟨htemplate, _⟩ := Template.mount_steps hfault
  obtain ⟨hdisplays, hparts⟩ := Template.mount_displays hbare hfault
  have hnodup : (c.rendering t w).template.handles.Nodup := by
    unfold Contract.rendering
    rw [htemplate]
    exact Template.nodup_handles_place hbare _
  have hplaced : ∀ p ∈ (c.rendering t w).template.preorder, p.isRendered = true →
      p.rendered.isSome = true := by
    intro p hp hrendered
    obtain ⟨node, _, _, hnode, _⟩ := hparts p hp hrendered
    rw [hnode]
    rfl
  refine ⟨_, faithful_withTemplate hc hnodup hplaced, rfl, rfl,
    h.render hnodup _ ?_ (carries_mount hbare hfault)⟩
  intro p hp node hnode
  exact (hdisplays p hp node hnode).mono False.elim

/-- **Bringing a component up** makes it stand, unless its template is refused. -/
theorem bringUp_stands (hc : c.Faithful) (config : Config κ) :
    Triple (c.Met .idle) (bringUp (program.handle c.id depth) c.id config)
      (fun result w => w.host.Settled c.id ∧ (result = .ok () → Stands c.id w)) c.Fallen := by
  unfold bringUp
  refine Triple.bind (runHook_keeps program depth hc config.created) fun _ => ?_
  refine Triple.bind (Q := fun _ => c.Met .idle) (Triple.modify fun _ h => h.tell _) fun _ => ?_
  refine Triple.get_bind fun w hw => ?_
  refine Triple.get_bind fun w' hw' => ?_
  subst hw'
  dsimp only
  split
  · refine Triple.pure fun w'' he => ⟨?_, fun h => by cases h⟩
    rw [he]
    exact hc.noted ▸ hw.noted
  · refine Triple.bind (Triple.at_world (renderComponent_stands hc (Template.bare_ofContents _)) hw)
      fun _ => ?_
    have hmounted : Triple (Stands c.id) (runHook (program.handle c.id depth) c.id config.mounted)
        (fun _ => Stands c.id) c.Fallen := by
      rw [fallen_eq hc]
      refine stands_of_keeps fun c' hc' hid _ => ?_
      rw [← hid]
      exact runHook_keeps program depth hc' config.mounted
    refine Triple.bind hmounted fun _ => ?_
    refine Triple.bind (Q := fun _ => Stands c.id) (Triple.modify fun _ h => h.tell _) fun _ => ?_
    exact Triple.pure fun w h => ⟨h.settled, fun _ => h⟩

/-- A component that is taken down again leaves the diary as it is. -/
theorem takeDown_settled (id : ComponentId) :
    Triple (fun w : World κ (Diary κ σ) => w.host.Settled 0) (modify (·.releaseComponent id))
      (fun _ w => w.host.Settled 0) fun w => w.host.Settled 0 := by
  refine Triple.modify fun w h => ?_
  rw [World.host_releaseComponent]
  exact h

/-- **Making a component** makes it stand, unless something is refused. -/
theorem mount_stands (document : DocumentId) (config : Config κ) :
    Triple (fun w => Unmade w ∧ document < w.documents.size)
      (mount (program.handle 0 depth) document config)
      (fun result w => w.host.Settled 0 ∧ ∀ id, result = .ok id → Stands 0 w)
      fun w => w.host.Settled 0 := by
  unfold mount
  refine Triple.bind (Q := fun _ w => Unmade w ∧ document < w.documents.size)
    (Triple.modify fun _ h => ⟨h.1.tell _, h.2⟩) fun _ => ?_
  cases Selector.parse config.el with
  | error e => exact Triple.pure fun w h => ⟨h.1.settled, fun id hid => by cases hid⟩
  | ok selector =>
    refine Triple.get_bind fun w ⟨hw, hdocument⟩ => ?_
    cases selector.query (w.document document) with
    | none =>
      refine Triple.pure fun w' he => ⟨?_, fun id hid => by cases hid⟩
      rw [he]
      exact hw.settled
    | some root =>
      refine Triple.get_bind fun w' he => ?_
      subst he
      have hfaithful := faithful_made w' document root config
      have hnote : Diary.Settled w'.components.size w'.host := by
        rw [hw.components]
        exact hw.settled
      have hadded : (made w' document root config (faithfulTerms w' config)).Met .idle
          (w'.addComponent document root config) :=
        met_made hw.components hw.subscribers hdocument trivial trivial hnote
      have hid : (made w' document root config (faithfulTerms w' config)).id = 0 := hw.components
      have hbring := bringUp_stands program depth hfaithful config
      rw [fallen_eq hfaithful] at hbring
      generalize made w' document root config (faithfulTerms w' config) = c at *
      rw [hid] at hbring
      dsimp only
      rw [hw.components]
      refine Triple.bind (Q := fun _ => c.Met .idle) (Triple.modify ?_) fun _ => ?_
      · rintro w'' rfl
        exact hadded
      refine Triple.tryCatch (F := fun w => w.host.Settled 0) (Triple.bind hbring fun result => ?_)
        fun f => ?_
      · cases result with
        | ok _ => exact Triple.pure fun w h => ⟨h.1, fun _ _ => h.2 rfl⟩
        | error e =>
          exact Triple.bind ((takeDown_settled _).pre fun w h => h.1) fun _ =>
            Triple.pure fun w h => ⟨h, fun id hid => by cases hid⟩
      · exact Triple.bind (takeDown_settled _) fun _ => Triple.throw fun w h => h

/-- Parsing makes a document, or none, and no component. -/
theorem parseDocument_unmade (source : String) :
    Triple Unmade (parseDocument source : Run κ (Diary κ σ) _)
      (fun result w => Unmade w ∧ ∀ document, result = .ok document → document < w.documents.size)
      fun w => w.host.Settled 0 := by
  unfold parseDocument
  refine Triple.bind (Q := fun _ => Unmade) (Triple.modify fun _ h => h.tell _) fun _ => ?_
  cases Dom.Document.parse source with
  | error e => exact Triple.pure fun w h => ⟨h, fun _ he => by cases he⟩
  | ok d =>
    refine Triple.get_bind fun w hw => ?_
    refine Triple.bind (Q := fun _ w' => w' = { w with documents := w.documents.push d })
      (Triple.modify fun w' he => by rw [he]) fun _ => ?_
    refine Triple.pure fun w' he => ?_
    rw [he]
    refine ⟨{ hw with }, fun document hdocument => ?_⟩
    cases hdocument
    exact Array.size_push _ ▸ Nat.lt_succ_self _

theorem mountMarkup_stands (source : String) (config : Config κ) :
    Triple Unmade (mountMarkup (program.handle 0 depth) source config)
      (fun result w => w.host.Settled 0 ∧ ∀ made, result = .ok made → Stands 0 w)
      fun w => w.host.Settled 0 := by
  unfold mountMarkup
  refine Triple.bind (parseDocument_unmade source) fun result => ?_
  cases result with
  | error e => exact Triple.pure fun w h => ⟨h.1.settled, fun _ he => by cases he⟩
  | ok document =>
    refine Triple.map ((mount_stands program depth document config).pre fun w h => ⟨h.1, h.2 _ rfl⟩)
      fun result w h => ⟨h.1, fun made hmade => ?_⟩
    cases result with
    | error e => cases hmade
    | ok id => exact h.2 id rfl

/-- **Every outcome of a session** has a settled diary. -/
theorem session_settled (source : String) (config : Config κ) (requests : List (Request κ)) :
    Triple Unmade (program.session depth source config requests) (fun _ w => w.host.Settled 0)
      fun w => w.host.Settled 0 := by
  unfold Program.session
  refine Triple.get_bind fun w hw => ?_
  dsimp only
  rw [hw.components]
  refine Triple.bind (Triple.at_world (mountMarkup_stands program depth source config) hw)
    fun result => ?_
  cases result with
  | error e => exact Triple.pure fun w h => h.1
  | ok made =>
    refine Triple.bind (Q := fun _ => Stands 0) (Triple.modify fun w h => (h.2 made rfl).noteReturn)
      fun _ => ?_
    have hrequests : Triple (Stands 0) (Request.performAll (program.handle 0 depth) 0 requests)
        (fun _ => Stands 0) fun w => w.host.Settled 0 := by
      refine stands_of_keeps fun c hc hid htemplate => ?_
      rw [← hid]
      exact performAll_keeps hc (handle_keeps hc program depth) htemplate requests
    exact Triple.bind hrequests fun _ => Triple.pure fun w h => h.settled

end Run

/-- **The document stays consistent with the store.** Whatever program runs, however deep its handlers
make requests within requests, and whatever requests come from outside: in every world in which a
method, a hook or a subscriber is entered, and in every world that an outermost request leaves behind,
each part of the template but for comments has a node; that of a text holds the text resolved against
the store as it is then; and where bound inputs follow writes, that of an element bound to a declared
key has the text of the key's value as its live value, unless a person's edit of this very node is
still under way. No edit is under way when an outermost request has returned. -/
theorem settled_throughout (program : Program κ σ) (depth : Nat) (source : String)
    (config : Config κ) (requests : List (Request κ)) (own : σ) :
    (∀ w ∈ (program.diary depth source config requests own).entered, w.Settled w.IsEdited) ∧
      ∀ w ∈ (program.diary depth source config requests own).returned,
        w.Settled (fun _ => False) ∧ (w.component 0).template.isSome = true := by
  have hstart : Unmade (World.ofHost (⟨own, [], []⟩ : Diary κ σ) : World κ (Diary κ σ)) :=
    ⟨rfl, rfl, fun _ hw => absurd hw List.not_mem_nil, fun _ hw => absurd hw List.not_mem_nil⟩
  have hsession := Run.session_settled program depth source config requests _ hstart
  unfold Program.diary
  cases hresult : program.session depth source config requests (World.ofHost ⟨own, [], []⟩) with
  | ok result w =>
    rw [hresult] at hsession
    exact hsession
  | error f w =>
    rw [hresult] at hsession
    exact hsession

end BoundView
