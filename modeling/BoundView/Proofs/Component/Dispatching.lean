import BoundView.Proofs.Component.Writing

/-!
# Dispatch keeps the contract

Listeners run handlers, call methods and carry edits to keys. Each of them keeps the contract at every
stage, and so does a walk along the path of an event.

An edit by a person is the one request that breaks the contract for a while: the node holds what was
typed before the store knows of it. The target is the first node of the path, and where its value is
bound to a declared key one of its listeners writes this key. So when the listeners of the first node
are through, the edit has arrived, whatever the others of them did before and after.

Main statements: `holding_spec`, `runActions_keeps`, `runActions_arrives`, `visit_keeps`,
`click_keeps`, `edit_keeps`.
-/

namespace BoundView

open BoundView.Dom (Content Document NodeId)
open BoundView.Dom.Document (Revises SameListeners)

variable {κ σ α : Type} {c : Contract κ σ} {g g' : Stage} {handle : Handle κ σ}

namespace Contract

/-- **A contract for any requests**: no write changes what is agreed about values, any fault is
allowed, and each firm live value is bound to a declared key to which its node carries edits. -/
structure Lasting (c : Contract κ σ) : Prop where
  fails : ∀ s, c.note s → c.failed s
  overwrites : ∀ key value f, c.values f → c.values (overwritten f key value)
  hears : ∀ d e, c.frame d → SameListeners d e → c.frame e
  carries : ∀ t d, c.template = some t → c.frame d → ∀ p ∈ t.preorder, ∀ node,
    p.rendered = some node → ¬ c.loose p node →
      ∃ key, p.modelKey? = some key ∧ c.store.cell? key ≠ none ∧ c.options.syncInputs = true ∧
        Action.model c.id key ∈ (d.listenersFor node "input").map (·.action)

/-- The contract that holds a node's live value to nothing. -/
def loosened (c : Contract κ σ) (node : NodeId) : Contract κ σ :=
  { c with
    loose := fun p n => c.loose p n ∨ n = node
    loose_of_syncInputs := fun h p n => .inl (c.loose_of_syncInputs h p n) }

theorem Arrives.enter {key : String} (h : c.Arrives g g' key) : c.Arrives g.enter g'.enter key := by
  refine ⟨⟨?_, h.settles.pending, h.settles.edits⟩, h.loose⟩
  unfold Stage.enter
  dsimp only
  rw [h.settles.activities]

theorem Met.fallen {w : World κ σ} (hc : c.Lasting) (h : c.Met g w) : c.Fallen w :=
  hc.fails _ h.noted

/-- Only the listed component can be alive. -/
theorem Met.eq_of_isAlive {w : World κ σ} (h : c.Met g w) {id : ComponentId}
    (hid : w.isAlive id = true) : id = c.id := by
  refine Decidable.byContradiction fun hne => ?_
  unfold World.isAlive at hid
  rw [(h.others id hne).2] at hid
  cases hid

/-- **A later stage** that holds to nothing no more than the earlier one. -/
theorem Met.settles {w : World κ σ} (h : c.Met g w) (hg : g.Settles g')
    (hloose : ∀ t, c.template = some t → ∀ p ∈ t.preorder, ∀ node, p.rendered = some node →
      c.looseAt g p node → c.looseAt g' p node) : c.Met g' w := by
  refine ⟨h.toWired.settles hg, ?_, h.framed, h.valued⟩
  intro t ht p hp node hnode
  obtain ⟨hthere, hkept, hexact⟩ := h.shown t ht p hp node hnode
  exact ⟨hthere, hkept, fun hfirm => hexact fun hl => hfirm (hloose t ht p hp node hnode hl)⟩

end Contract

namespace Run

/-! ## Activities -/

/-- **An activity on behalf of the component** keeps what its body keeps. -/
theorem holding_spec {body : Run κ σ α}
    (hbody : Triple (c.Met g.enter) body (fun _ => c.Met g'.enter) c.Fallen) :
    Triple (c.Met g) (holding c.id body) (fun _ => c.Met g') c.Fallen := by
  refine Triple.holding (fun _ h => h.holdComponent) hbody (fun _ _ h => h.releaseComponent)
    fun w hw => ?_
  unfold Contract.Fallen
  rw [World.host_releaseComponent]
  exact hw

/-- Reading a document changes nothing; a read that fails is a fault. -/
theorem readDocument_keeps {P : World κ σ → Prop} (hP : ∀ w, P w → c.Fallen w) (id : DocumentId)
    (read : Document (Action κ) → Except Dom.Fault α) :
    Triple P (readDocument id read) (fun _ => P) c.Fallen := by
  unfold readDocument ofDocument
  refine Triple.get_bind fun w hw => ?_
  cases read (w.document id) with
  | ok a => exact Triple.at_world (Triple.pure fun _ h => h) hw
  | error f => exact Triple.at_world (Triple.throw hP) hw

/-- Editing a document: the edit either gives a new document or faults and changes nothing. -/
theorem editDocument_spec {P E : World κ σ → Prop} {Q : α → World κ σ → Prop} {id : DocumentId}
    {request : Document (Action κ) → Except Dom.Fault (α × Document (Action κ))}
    (h : ∀ w, P w → match request (w.document id) with
      | .ok (a, d) => Q a (w.setDocument id d)
      | .error _ => E w) :
    Triple P (editDocument id request) Q E := by
  unfold editDocument ofDocument
  refine Triple.get_bind fun w hw => ?_
  have hresult := h w hw
  cases hrequest : request (w.document id) with
  | ok outcome =>
    rw [hrequest] at hresult
    refine Triple.bind (Q := fun a w' => a = outcome ∧ w' = w)
      (Triple.pure fun _ hw' => ⟨rfl, hw'⟩) fun a => ?_
    refine Triple.bind (Q := fun _ w' => a = outcome ∧ w' = w.setDocument id outcome.2)
      (Triple.modify ?_) fun _ => Triple.pure ?_
    · rintro w' ⟨rfl, rfl⟩
      exact ⟨rfl, rfl⟩
    · rintro w' ⟨rfl, rfl⟩
      exact hresult
  | error f =>
    rw [hrequest] at hresult
    refine Triple.bind (Q := fun _ _ => False) (Triple.throw ?_) fun a => ?_
    · rintro w' rfl
      exact hresult
    · exact fun _ h => h.elim

section

variable (hc : c.Lasting) (hkeeps : c.Keeps handle)

include hkeeps

/-! ## Listeners -/

theorem call_keeps (name : String) (event : EventId) :
    Triple (c.Met g) (call handle c.id name event) (fun _ => c.Met g) c.Fallen := by
  unfold call
  refine Triple.get_bind fun w hw => ?_
  cases (w.component c.id).method? name with
  | none => exact Triple.at_world (Triple.pure fun _ h => h) hw
  | some run =>
    have hheld := holding_spec (hkeeps g.enter run (.method c.id event))
    exact Triple.bind (hheld.at_world hw) fun _ => Triple.pure fun _ h => h

theorem runMethod_keeps (name : String) (event : EventId) :
    Triple (c.Met g) (runMethod handle c.id name event) (fun _ => c.Met g) c.Fallen := by
  unfold runMethod
  refine Triple.bind (call_keeps hkeeps name event) fun result => ?_
  cases result with
  | ok _ => exact Triple.pure fun _ h => h
  | error _ =>
    refine Triple.get_bind fun w hw => ?_
    exact Triple.at_world (Triple.modify fun _ h => h.tell _) hw

include hc

/-- **An edit arrives** when it is carried to its key. -/
theorem runModel_arrives {key : String} (hkey : c.store.cell? key ≠ none)
    (harrives : c.Arrives g g' key) (event : EventId) :
    Triple (c.Met g) (runModel handle c.id key event) (fun _ => c.Met g') c.Fallen := by
  unfold runModel
  refine Triple.get_bind fun w hw => ?_
  refine Triple.bind (Triple.at_world (readDocument_keeps (fun _ h => h.fallen hc) _ _) hw)
    fun value => ?_
  refine Triple.bind (write_arrives hkeeps hkey harrives (hc.overwrites _ _)) fun result => ?_
  cases result with
  | ok _ => exact Triple.pure fun _ h => h
  | error _ => exact Triple.modify fun _ h => h.tell _

theorem runModel_keeps (key : String) (event : EventId) :
    Triple (c.Met g) (runModel handle c.id key event) (fun _ => c.Met g) c.Fallen := by
  unfold runModel
  refine Triple.get_bind fun w hw => ?_
  refine Triple.bind (Triple.at_world (readDocument_keeps (fun _ h => h.fallen hc) _ _) hw)
    fun value => ?_
  have hwrite : Triple (c.Met g) (write handle c.id key (.str (value.getD ""))) (fun _ => c.Met g)
      c.Fallen := write_keeps hkeeps (hc.overwrites _ _)
  refine Triple.bind hwrite fun result => ?_
  cases result with
  | ok _ => exact Triple.pure fun _ h => h
  | error _ => exact Triple.modify fun _ h => h.tell _

/-- **One listener's turn** keeps the contract. -/
theorem runAction_keeps (event : EventId) (action : Action κ) :
    Triple (c.Met g) (runAction handle event action) (fun _ => c.Met g) c.Fallen := by
  cases action with
  | handler run => exact hkeeps g run (.event event)
  | method id name =>
    refine Triple.get_bind fun w hw => ?_
    by_cases halive : w.isAlive id = true
    · rw [if_pos halive]
      obtain rfl := hw.eq_of_isAlive halive
      exact Triple.at_world (holding_spec (runMethod_keeps hkeeps name event)) hw
    · rw [if_neg halive]
      exact Triple.at_world (Triple.pure fun _ h => h) hw
  | model id key =>
    refine Triple.get_bind fun w hw => ?_
    by_cases halive : w.isAlive id = true
    · rw [if_pos halive]
      obtain rfl := hw.eq_of_isAlive halive
      exact Triple.at_world (holding_spec (runModel_keeps hc hkeeps key event)) hw
    · rw [if_neg halive]
      exact Triple.at_world (Triple.pure fun _ h => h) hw

/-- The turn of the listener that carries edits to a key. -/
theorem runAction_arrives {key : String} (hkey : c.store.cell? key ≠ none)
    (harrives : c.Arrives g g' key) (event : EventId) :
    Triple (c.Met g) (runAction handle event (.model c.id key)) (fun _ => c.Met g') c.Fallen := by
  unfold runAction
  refine Triple.get_bind fun w hw => ?_
  have halive : w.isAlive c.id = true :=
    decide_eq_true (Nat.lt_of_le_of_lt (Nat.zero_le _) hw.held)
  rw [if_pos halive]
  exact Triple.at_world (holding_spec (runModel_arrives hc hkeeps hkey harrives.enter event)) hw

theorem runActions_keeps (event : EventId) (actions : List (Action κ)) :
    Triple (c.Met g) (runActions handle event actions) (fun _ => c.Met g) c.Fallen := by
  induction actions with
  | nil => exact Triple.pure fun _ h => h
  | cons action rest ih => exact Triple.bind (runAction_keeps hc hkeeps event action) fun _ => ih

/-- **Listeners one of which carries edits to a key** let the edits arrive. -/
theorem runActions_arrives {key : String} (hkey : c.store.cell? key ≠ none)
    (harrives : c.Arrives g g' key) (event : EventId) {actions : List (Action κ)}
    (hactions : Action.model c.id key ∈ actions) :
    Triple (c.Met g) (runActions handle event actions) (fun _ => c.Met g') c.Fallen := by
  induction actions with
  | nil => cases hactions
  | cons action rest ih =>
    rcases List.mem_cons.mp hactions with rfl | hrest
    · exact Triple.bind (runAction_arrives hc hkeeps hkey harrives event) fun _ =>
        runActions_keeps hc hkeeps event rest
    · exact Triple.bind (runAction_keeps hc hkeeps event action) fun _ => ih hrest

/-! ## Dispatch -/

/-- **A walk along a path** keeps the contract. -/
theorem visit_keeps (document : DocumentId) (event : EventId) (path : List NodeId) :
    Triple (c.Met g) (visit handle document event path) (fun _ => c.Met g) c.Fallen := by
  induction path with
  | nil => exact Triple.pure fun _ h => h
  | cons node path ih =>
    unfold visit
    refine Triple.bind (Q := fun _ => c.Met g)
      (Triple.discard (readDocument_keeps (fun _ h => h.fallen hc) _ _) fun _ _ h => h) fun _ => ?_
    refine Triple.get_bind fun w hw => ?_
    refine Triple.bind (Q := fun _ => c.Met g)
      (Triple.at_world (Triple.modify fun _ h => h.arrive event node) hw) fun _ => ?_
    refine Triple.bind (runActions_keeps hc hkeeps event _) fun _ => ?_
    refine Triple.get_bind fun w' hw' => ?_
    split
    · exact Triple.at_world (Triple.pure fun _ h => h) hw'
    · exact Triple.bind (Triple.at_world ih hw') fun _ => Triple.pure fun _ h => h

omit hc hkeeps in
/-- **Firing an event** walks along its path, in a world with the event, and then the event is over. -/
theorem fire_steps {P Q E : World κ σ → Prop} {document : DocumentId} {e : Event}
    (hvisit : ∀ w, P w → Triple (· = (w.addEvent e).tell [.dispatching e.type e.target])
      (visit handle document w.events.size (w.path document e))
      (fun _ w' => Q (w'.modifyEvent w.events.size fun e => { e with current := none })) E) :
    Triple P (fire handle document e) (fun _ => Q) E := by
  unfold fire
  refine Triple.get_bind fun w hw => ?_
  have hevent : (w.addEvent e).event w.events.size = e :=
    World.event_of_getElem? Array.getElem?_push_size
  refine Triple.bind (Q := fun _ w' => w' = w.addEvent e) (Triple.modify fun w' he => by rw [he])
    fun _ => ?_
  unfold dispatch
  refine Triple.bind (Q := fun _ => Q) ?_ fun _ => Triple.pure fun _ h => h
  refine Triple.get_bind fun w₁ he => ?_
  subst he
  rw [hevent]
  refine Triple.bind (Q := fun _ w' => w' = (w.addEvent e).tell [.dispatching e.type e.target])
    (Triple.modify fun w' he => by rw [he]) fun _ => ?_
  refine Triple.get_bind fun w₂ he => ?_
  subst he
  refine Triple.bind (hvisit w hw) fun _ => ?_
  refine Triple.bind (Q := fun _ => Q) (Triple.modify fun _ h => h) fun _ => ?_
  exact Triple.pure fun _ h => h

omit hc hkeeps in
/-- Firing an event keeps what the walk along its path restores. -/
theorem fire_spec {c' : Contract κ σ} {document : DocumentId} {e : Event}
    (hvisit : ∀ event path, Triple (fun w => c'.Met g w ∧ w.events[event]? = some e)
      (visit handle document event (e.target :: path)) (fun _ => c.Met g) c.Fallen) :
    Triple (c'.Met g) (fire handle document e) (fun _ => c.Met g) c.Fallen := by
  refine fire_steps fun w hw => ?_
  have hfresh : ∀ r ∈ g.edits, r.1 ≠ w.events.size := by
    intro r hr
    obtain ⟨_, hold, _⟩ := hw.editing r.1 r.2 hr
    exact Nat.ne_of_lt (Array.getElem?_eq_some_iff.mp hold).1
  refine (hvisit w.events.size _).weaken ?_ (fun _ _ h => h.depart hfresh) fun _ h => h
  rintro w' rfl
  exact ⟨(hw.addEvent e).tell _, Array.getElem?_push_size⟩

/-- **A click keeps the contract.** -/
theorem click_keeps (document : DocumentId) (node : NodeId) :
    Triple (c.Met g) (click handle document node) (fun _ => c.Met g) c.Fallen := by
  unfold click
  refine Triple.bind (Q := fun _ => c.Met g) (fire_spec fun event path => ?_) fun _ =>
    Triple.pure fun _ h => h
  exact (visit_keeps hc hkeeps document event _).pre fun _ h => h.1

/-! ## Edits -/

omit hkeeps in
/-- **Assigning a value** keeps the contract but for the live value of the node. -/
theorem assign_spec (node : NodeId) (value : String) :
    Triple (c.Met g) (editDocument c.document (·.setValue node value))
      (fun _ => (c.loosened node).Met g) c.Fallen := by
  refine editDocument_spec fun w hw => ?_
  rcases Nat.lt_or_ge node (w.document c.document).size with hlt | hge
  · obtain ⟨changed, e, hset, hrevises⟩ := Document.setValue_spec hlt value
    rw [hset]
    have hframed : c.frame e := hc.hears _ _ hw.framed hrevises.listeners
    have hloosened : (c.loosened node).Met g w := by
      refine { hw with fits := { hw.fits with }, shown := fun t ht p hp n hn => ?_ }
      exact (hw.shown t ht p hp n hn).mono fun hl => hl.imp .inl id
    refine hloosened.setDocument (.refl g) ?_ hframed
    intro t ht p hp n hn
    exact (hw.shown t ht p hp n hn).assign hrevises
      (fun hl => hl.imp .inl id) fun he => .inl (.inr he)
  · have herror := ((w.document c.document).node_eq_error_iff).mpr ⟨hge, rfl⟩
    unfold Document.setValue
    rw [herror]
    exact hw.fallen hc

omit hc hkeeps in
/-- **An edit sets out**: its event arrives at the edited node. -/
theorem begin_spec {w : World κ σ} {node : NodeId} {event : EventId}
    (hw : (c.loosened node).Met g w) (he : w.events[event]? = some (.fresh "input" node true)) :
    c.Met (g.begin event node) (w.modifyEvent event fun e => { e with current := some node }) := by
  have harrived := hw.arrive event node
  refine { harrived with fits := { harrived.fits with }, editing := ?_, shown := ?_ }
  · intro other target hr
    rcases List.mem_cons.mp hr with hnew | hold
    · cases hnew
      unfold World.IsEditing
      rw [World.getElem?_events_modifyEvent, if_pos rfl, he]
      exact ⟨_, rfl, rfl, rfl, rfl⟩
    · exact harrived.editing other target hold
  · intro t ht p hp n hn
    refine (harrived.shown t ht p hp n hn).mono fun hl => ?_
    rcases hl with (hl | rfl) | ⟨other, hold⟩
    · exact .inl hl
    · exact .inr ⟨event, List.mem_cons_self⟩
    · exact .inr ⟨other, List.mem_cons_of_mem _ hold⟩

/-- **The listeners of the edited node** let the edit arrive, whether its value is bound or not. -/
theorem runActions_edited {node : NodeId} {event : EventId} {d : Document (Action κ)}
    (hd : c.frame d) :
    Triple (c.Met (g.begin event node))
      (runActions handle event ((d.listenersFor node "input").map (·.action)))
      (fun _ => c.Met g) c.Fallen := by
  have hsettles : (g.begin event node).Settles g :=
    ⟨rfl, rfl, fun r hr => List.mem_cons_of_mem _ hr⟩
  by_cases hfirm : ∃ t p, c.template = some t ∧ p ∈ t.preorder ∧ p.rendered = some node ∧
      ¬ c.loose p node
  · obtain ⟨t, p, ht, hp, hnode, hfirm⟩ := hfirm
    obtain ⟨key, hbound, hdeclared, hsync, hcarries⟩ := hc.carries t d ht hd p hp node hnode hfirm
    refine runActions_arrives hc hkeeps hdeclared ⟨hsettles, ?_⟩ event hcarries
    intro t' ht' q hq n hn hl
    obtain rfl := Option.some.inj (ht.symm.trans ht')
    rcases hl with hl | ⟨other, hother⟩
    · exact .inl (.inl hl)
    · rcases List.mem_cons.mp hother with hnew | hold
      · cases hnew
        obtain rfl := t.eq_of_rendered (c.nodup t ht) hp hnode hq hn
        exact .inr ⟨hsync, hbound⟩
      · exact .inl (.inr ⟨other, hold⟩)
  · refine (runActions_keeps hc hkeeps event _).pre fun w hw => ?_
    refine hw.settles hsettles fun t ht p hp n hn hl => ?_
    rcases hl with hl | ⟨other, hother⟩
    · exact .inl hl
    · rcases List.mem_cons.mp hother with hnew | hold
      · cases hnew
        exact .inl (Classical.byContradiction fun hl => hfirm ⟨t, p, ht, hp, hn, hl⟩)
      · exact .inr ⟨other, hold⟩

/-- **An edit keeps the contract** once it is over. -/
theorem edit_keeps (node : NodeId) (value : String) :
    Triple (c.Met g) (edit handle c.document node value) (fun _ => c.Met g) c.Fallen := by
  unfold edit
  refine Triple.bind (Q := fun _ => (c.loosened node).Met g)
    (Triple.discard (assign_spec hc node value) fun _ _ h => h) fun _ => ?_
  refine Triple.bind (Q := fun _ => c.Met g) (fire_spec fun event path => ?_) fun _ =>
    Triple.pure fun _ h => h
  unfold visit
  refine Triple.bind (Q := fun _ w => (c.loosened node).Met g w ∧
    w.events[event]? = some (.fresh "input" node true)) (Triple.discard ?_ fun _ _ h => h) fun _ => ?_
  · exact readDocument_keeps (fun w h => hc.fails _ h.1.noted) _ _
  refine Triple.get_bind fun w ⟨hw, he⟩ => ?_
  have htype : (w.event event).type = "input" := by
    rw [World.event_of_getElem? he]
    rfl
  dsimp only
  rw [htype]
  refine Triple.bind (Q := fun _ => c.Met (g.begin event node)) (Triple.modify ?_) fun _ => ?_
  · rintro w' rfl
    exact begin_spec hw he
  refine Triple.bind (runActions_edited hc hkeeps hw.framed) fun _ => ?_
  refine Triple.get_bind fun w' hw' => ?_
  split
  · exact Triple.at_world (Triple.pure fun _ h => h) hw'
  · exact Triple.bind (Triple.at_world (visit_keeps hc hkeeps c.document event path) hw') fun _ =>
      Triple.pure fun _ h => h

end

end Run

end BoundView
