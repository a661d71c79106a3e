import BoundView.Proofs.Component.Dispatching
import BoundView.Proofs.Component.Hearing
import BoundView.Proofs.Component.Injection

/-!
# An input event stores the value of its target

An input event goes from its target up to the document, and each listener on its way that carries
edits to a key runs. What it stores is the live value of the node at which the event was aimed, and
not that of the element which the listener belongs to. So one event gives all keys that are bound on
its path the same value, and an event from within a bound element gives the key of the element the
value of whatever lies within: the empty text, if that has no value.

Main statement: `input_stores_target`.
-/

namespace BoundView

open BoundView.Dom (Content Document NodeId)
open BoundView.Dom.Document (Revises SameLinks SameListeners)

variable {κ σ α : Type} {c : Contract κ σ} {g : Stage} {a : Arrival} {w : World κ σ}

/-! ## Listeners -/

/-- The key of a component to which a listener carries edits. -/
def Action.carried? (id : ComponentId) : Action κ → Option String
  | .model component key => if component = id then some key else none
  | _ => none

/-- The keys to which listeners carry edits, in the order in which they run. -/
def carried (id : ComponentId) (actions : List (Action κ)) : List String :=
  actions.filterMap (Action.carried? id)

/-- **The keys to which the listeners of nodes carry edits.** -/
def Dom.Document.carriedKeys (d : Document (Action κ)) (id : ComponentId) (nodes : List NodeId) :
    List String :=
  nodes.flatMap fun node => carried id ((d.listenersFor node "input").map (·.action))

/-- **A point of a dispatch**: the contract is kept with these values, and the event is on its way. -/
structure Underway (c : Contract κ σ) (a : Arrival) (values : String → Option Value) (g : Stage)
    (w : World κ σ) : Prop where
  met : (c.withValues (· = values)).Met g w
  hearing : Hearing c.document a w

namespace Run

variable {values values' : String → Option Value}

/-- A read that succeeds. -/
theorem readDocument_spec {P : World κ σ → Prop} {Q : α → World κ σ → Prop} {E : World κ σ → Prop}
    {id : DocumentId} {read : Document (Action κ) → Except Dom.Fault α}
    (h : ∀ w, P w → ∃ b, read (w.document id) = .ok b ∧ Q b w) :
    Triple P (readDocument id read) Q E := by
  unfold readDocument ofDocument
  refine Triple.get_bind fun w hw => ?_
  obtain ⟨b, hread, hb⟩ := h w hw
  rw [hread]
  exact Triple.at_world (P := (· = w)) (Triple.pure fun w' he => he ▸ hb) rfl

theorem holding_underway {body : Run κ σ α}
    (hbody : Triple (Underway c a values g.enter) body (fun _ => Underway c a values' g.enter)
      c.Fallen) :
    Triple (Underway c a values g) (holding c.id body) (fun _ => Underway c a values' g)
      c.Fallen := by
  refine Triple.holding (fun w h => ⟨h.met.holdComponent, h.hearing.congr rfl rfl⟩) hbody
    (fun _ w h => ⟨h.met.releaseComponent, ?_⟩) fun w hw => ?_
  · obtain ⟨_, _, hrelease⟩ := w.exists_releaseComponent c.id
    rw [hrelease]
    exact h.hearing.congr rfl rfl
  · unfold Contract.Fallen
    rw [World.host_releaseComponent]
    exact hw

/-- **A listener that calls a method** does nothing in a world without handlers. -/
theorem runMethod_underway (name : String) :
    Triple (Underway c a values g) (runMethod quiet c.id name a.event)
      (fun _ => Underway c a values g) c.Fallen := by
  unfold runMethod call
  refine Triple.bind (Q := fun _ => Underway c a values g) ?_ fun result => ?_
  · refine Triple.get_bind fun w hw => ?_
    cases (w.component c.id).method? name with
    | none => exact Triple.at_world (Triple.pure fun _ h => h) hw
    | some run =>
      have hquiet : Triple (Underway c a values g) (holding c.id (quiet run (.method c.id a.event)))
          (fun _ => Underway c a values g) c.Fallen :=
        holding_underway (Triple.pure fun _ h => h)
      exact Triple.bind (hquiet.at_world hw) fun _ => Triple.pure fun _ h => h
  · cases result with
    | ok _ => exact Triple.pure fun _ h => h
    | error _ =>
      refine Triple.get_bind fun w hw => ?_
      exact Triple.at_world (Triple.modify fun _ h => ⟨h.met.tell _, h.hearing.congr rfl rfl⟩) hw

/-- **A write of the live value of the target.** -/
theorem write_underway (key : String) :
    Triple (Underway c a values g) (write quiet c.id key (.str a.text))
      (fun _ => Underway c a (overwritten values key (.str a.text)) g) c.Fallen := by
  have hwrite : Triple ((c.withValues (· = values)).Met g) (write quiet c.id key (.str a.text))
      (fun _ => (c.withValues (· = overwritten values key (.str a.text))).Met g) c.Fallen :=
    write_keeps (c := c.withValues (· = values)) (quiet_keeps _) fun f hf =>
      congrArg (overwritten · key (.str a.text)) hf
  have hhearing : Triple (Underway c a values g) (write quiet c.id key (.str a.text))
      (fun _ => Hearing c.document a) fun _ => True :=
    (write_hearing (c := c.withValues (· = values)) key).pre fun _ h => ⟨h.met, h.hearing⟩
  exact (hwrite.and hhearing).weaken (fun _ h => ⟨h.met, h⟩) (fun _ _ h => ⟨h.1, h.2⟩) fun _ h => h.1

variable (hthere : ∀ d, c.frame d → a.target < d.size)

include hthere

/-- **A listener that carries edits to a key** stores the live value of the target. -/
theorem runModel_underway (key : String) :
    Triple (Underway c a values g) (runModel quiet c.id key a.event)
      (fun _ => Underway c a (overwritten values key (.str a.text)) g) c.Fallen := by
  unfold runModel
  refine Triple.get_bind fun w hw => ?_
  have hfits : (w.component c.id).document = c.document := hw.met.fits.document
  rw [hfits, (hw.hearing.event c.document).2.1]
  have hread : Triple (Underway c a values g) (readDocument c.document (·.value a.target))
      (fun value w => value.getD "" = a.text ∧ Underway c a values g w) c.Fallen :=
    readDocument_spec fun w' hw' =>
      ⟨_, Document.value_eq_ok (hthere _ hw'.met.framed), hw'.hearing.live, hw'⟩
  refine Triple.bind (hread.at_world hw) fun value => ?_
  refine Triple.assuming (φ := value.getD "" = a.text) (fun _ h => h.1) fun hvalue => ?_
  rw [hvalue]
  refine Triple.bind ((write_underway key).pre fun _ h => h.2) fun result => ?_
  cases result with
  | ok _ => exact Triple.pure fun _ h => h
  | error _ => exact Triple.modify fun _ h => ⟨h.met.tell _, h.hearing.congr rfl rfl⟩

/-- **One listener's turn.** -/
theorem runAction_underway (action : Action κ) :
    Triple (Underway c a values g) (runAction quiet a.event action)
      (fun _ => Underway c a (stored values (carried c.id [action]) (.str a.text)) g)
      c.Fallen := by
  cases action with
  | handler run => exact Triple.pure fun w h => (stored_nil values (.str a.text)).symm ▸ h
  | method id name =>
    have hnone : stored values (carried c.id [.method (κ := κ) id name]) (.str a.text) = values :=
      stored_nil values _
    rw [hnone]
    refine Triple.get_bind fun w hw => ?_
    by_cases halive : w.isAlive id = true
    · rw [if_pos halive]
      obtain rfl := hw.met.eq_of_isAlive halive
      exact Triple.at_world (holding_underway (runMethod_underway name)) hw
    · rw [if_neg halive]
      exact Triple.at_world (Triple.pure fun _ h => h) hw
  | model id key =>
    refine Triple.get_bind fun w hw => ?_
    by_cases hid : id = c.id
    · subst hid
      have halive : w.isAlive c.id = true :=
        decide_eq_true (Nat.lt_of_le_of_lt (Nat.zero_le _) hw.met.held)
      have hone : carried c.id [.model (κ := κ) c.id key] = [key] := by
        unfold carried
        rw [List.filterMap_cons_some
          (show Action.carried? c.id (.model (κ := κ) c.id key) = some key from if_pos rfl)]
        rfl
      rw [if_pos halive, hone, stored_singleton]
      exact Triple.at_world (holding_underway (runModel_underway hthere key)) hw
    · have hdead : ¬ w.isAlive id = true := fun halive => hid (hw.met.eq_of_isAlive halive)
      have hnone : carried c.id [.model (κ := κ) id key] = [] := by
        unfold carried
        rw [List.filterMap_cons_none
          (show Action.carried? c.id (.model (κ := κ) id key) = none from if_neg hid)]
        rfl
      rw [if_neg hdead, hnone, stored_nil]
      exact Triple.at_world (Triple.pure fun _ h => h) hw

/-- **The listeners of a node** store under all their keys. -/
theorem runActions_underway (actions : List (Action κ)) :
    Triple (Underway c a values g) (runActions quiet a.event actions)
      (fun _ => Underway c a (stored values (carried c.id actions) (.str a.text)) g) c.Fallen := by
  induction actions generalizing values with
  | nil => exact Triple.pure fun w h => (stored_nil values (.str a.text)).symm ▸ h
  | cons action rest ih =>
    have hcons : carried c.id (action :: rest) = carried c.id [action] ++ carried c.id rest :=
      List.filterMap_append (l := [action])
    rw [hcons, stored_append]
    exact Triple.bind (runAction_underway hthere action) fun _ => ih

/-- **The walk along the path of the event.** -/
theorem visit_underway {d : Document (Action κ)}
    (hframe : ∀ e, c.frame e → SameLinks d e ∧ SameListeners d e) {path : List NodeId}
    (hpath : ∀ node ∈ path, node < d.size) :
    Triple (Underway c a values g) (visit quiet c.document a.event path)
      (fun _ => Underway c a (stored values (d.carriedKeys c.id path) (.str a.text)) g)
      c.Fallen := by
  induction path generalizing values with
  | nil => exact Triple.pure fun w h => (stored_nil values (.str a.text)).symm ▸ h
  | cons node path ih =>
    have hcons : d.carriedKeys c.id (node :: path) =
        carried c.id ((d.listenersFor node "input").map (·.action)) ++ d.carriedKeys c.id path :=
      List.flatMap_cons
    rw [hcons, stored_append]
    unfold visit
    refine Triple.bind (Q := fun _ => Underway c a values g)
      (Triple.discard (Q := fun _ => Underway c a values g) (readDocument_spec fun w hw => ?_)
        fun _ _ h => h) fun _ => ?_
    · have hsame := (hframe _ hw.met.framed).1
      obtain ⟨n, hn⟩ := (w.document c.document).exists_node
        (hsame.size.symm ▸ hpath node List.mem_cons_self)
      exact ⟨n, ((w.document c.document).node_eq_ok_iff).mpr hn, hw⟩
    refine Triple.get_bind fun w hw => ?_
    have hlisteners : (w.document c.document).listenersFor node "input" =
        d.listenersFor node "input" := (hframe _ hw.met.framed).2.listenersFor node "input"
    rw [(hw.hearing.event c.document).1, hlisteners]
    refine Triple.bind (Q := fun _ => Underway c a values g) (Triple.modify ?_) fun _ => ?_
    · rintro w' rfl
      refine ⟨hw.met.arrive a.event node, ?_, hw.hearing.live⟩
      obtain ⟨e, he, hrest⟩ := hw.hearing.there
      refine ⟨{ e with current := some node }, ?_, hrest⟩
      rw [World.getElem?_events_modifyEvent, if_pos rfl, he]
      rfl
    refine Triple.bind (runActions_underway hthere _) fun _ => ?_
    refine Triple.get_bind fun w' hw' => ?_
    rw [if_neg (Bool.eq_false_iff.mp (hw'.hearing.event c.document).2.2)]
    have hrest := Triple.at_world (ih fun n hn => hpath n (List.mem_cons_of_mem _ hn)) hw'
    exact Triple.bind hrest fun _ => Triple.pure fun _ h => h

end Run

/-! ## Whole dispatches -/

namespace Contract

/-- **The contract with a component whose document keeps its links and listeners**, and whose live
values are held to nothing. -/
def relaxed (c : Contract κ σ) (d : Document (Action κ)) : Contract κ σ :=
  { c with
    loose := fun _ _ => True
    frame := fun e => SameLinks d e ∧ SameListeners d e
    loose_of_syncInputs := fun _ _ _ => trivial
    frame_of_sameOutside := fun _ _ _ _ h hsame =>
      ⟨h.1.trans hsame.links, h.2.trans hsame.listeners⟩ }

theorem Met.relaxed (h : c.Met g w) : (c.relaxed (w.document c.document)).Met g w := by
  refine { h with fits := { h.fits with }, shown := fun t ht p hp node hnode => ?_, framed := ?_ }
  · exact (h.shown t ht p hp node hnode).mono fun _ => .inl trivial
  · exact ⟨.refl _, fun _ => rfl⟩

/-- Assigning a live value keeps a contract that holds live values to nothing. -/
theorem Met.assign {d e : Document (Action κ)} {node : NodeId} {value : String}
    (h : (c.relaxed d).Met g w)
    (hrevises : Revises (w.document c.document) node
      (Content.mapElement fun e => { e with value := some value }) e) :
    (c.relaxed d).Met g (w.setDocument c.document e) := by
  refine h.setDocument (.refl g) (fun t ht p hp n hn => ?_) ?_
  · exact (h.shown t ht p hp n hn).assign hrevises (fun _ => .inl trivial) fun _ => .inl trivial
  · exact ⟨h.framed.1.trans hrevises.links, h.framed.2.trans hrevises.listeners⟩

end Contract

namespace Run

variable {values : String → Option Value}

/-- **An input event** leaves one value under all keys that are bound on its path. -/
theorem fire_underway {d : Document (Action κ)} {node : NodeId} {bubbles : Bool} {text : String}
    (hframe : ∀ e, c.frame e → SameLinks d e ∧ SameListeners d e)
    (hpath : ∀ n ∈ node :: (if bubbles then d.ancestors node else []), n < d.size) :
    Triple (fun w => (c.withValues (· = values)).Met .idle w ∧
        (w.document c.document).liveText node = text)
      (fire quiet c.document (.fresh "input" node bubbles))
      (fun _ => (c.withValues (· = stored values (d.carriedKeys c.id
        (node :: if bubbles then d.ancestors node else [])) (.str text))).Met .idle) c.Fallen := by
  refine fire_steps fun w ⟨hw, hlive⟩ => ?_
  have hsame : SameLinks d (w.document c.document) := (hframe _ hw.framed).1
  have hpath? : w.path c.document (.fresh "input" node bubbles) =
      node :: if bubbles then d.ancestors node else [] := by
    show node :: (if bubbles then (w.document c.document).ancestors node else []) = _
    rw [Document.ancestors_of_sameLinks hsame]
  rw [hpath?]
  have hthere : ∀ e, c.frame e → node < e.size := by
    intro e he
    rw [(hframe e he).1.size]
    exact hpath node List.mem_cons_self
  have hvisit : Triple (Underway c ⟨w.events.size, node, text⟩ values .idle)
      (visit quiet c.document w.events.size (node :: if bubbles then d.ancestors node else []))
      (fun _ => Underway c ⟨w.events.size, node, text⟩ (stored values (d.carriedKeys c.id
        (node :: if bubbles then d.ancestors node else [])) (.str text)) .idle) c.Fallen :=
    visit_underway hthere hframe hpath
  refine hvisit.weaken ?_ (fun _ w' h => h.met.depart fun r hr => by cases hr) fun _ h => h
  rintro w' rfl
  exact ⟨(hw.addEvent _).tell _, ⟨_, Array.getElem?_push_size, rfl, rfl, rfl⟩, hlive⟩

end Run

/-- The values of a component's keys. -/
def World.values (w : World κ σ) (id : ComponentId) : String → Option Value :=
  w.value? (w.component id).store

/-- **The keys that are bound on the way of an event.** -/
def World.boundOnPath (w : World κ σ) (document : DocumentId) (id : ComponentId) (e : Event) :
    List String :=
  (w.document document).carriedKeys id (w.path document e)

theorem Contract.Met.values_eq {values : String → Option Value}
    (h : (c.withValues (· = values)).Met g w) : w.values c.id = values := by
  have hfits : (c.withValues (· = values)).Fits (w.component c.id) := h.fits
  unfold World.values
  rw [hfits.store]
  exact h.valued

/-- What is on the way of an event is there. -/
theorem Dom.Document.lt_of_mem_path {d : Document κ} {node : NodeId}
    (habove : ∀ n, ∀ m ∈ d.ancestors n, m < d.size) (hnode : node < d.size) (bubbles : Bool) :
    ∀ n ∈ node :: (if bubbles then d.ancestors node else []), n < d.size := by
  intro n hn
  rcases List.mem_cons.mp hn with rfl | hn
  · exact hnode
  · split at hn
    · exact habove node n hn
    · cases hn

namespace Run

variable {values : String → Option Value} {node : NodeId}

/-- **What a run about an input event leaves**: it does not fault, and the keys that are bound on the
way of the event have this text. -/
def Stores (w : World κ σ) (document : DocumentId) (id : ComponentId) (e : Event) (text : String) :
    EStateM.Result Fault (World κ σ) α → Prop :=
  After (fun _ w' => w'.values id = stored (w.values id) (w.boundOnPath document id e) (.str text))
    fun _ => False

theorem stores_of_after (h : (c.withValues (· = values)).Met .idle w)
    (hfailed : c.failed = fun _ => False) {bubbles : Bool} {text : String}
    {r : EStateM.Result Fault (World κ σ) α}
    (hr : After (fun _ => ((c.relaxed (w.document c.document)).withValues (· = stored values
        ((w.document c.document).carriedKeys c.id
          (node :: if bubbles then (w.document c.document).ancestors node else []))
        (.str text))).Met .idle) c.Fallen r) :
    Stores w c.document c.id (.fresh "input" node bubbles) text r := by
  refine hr.weaken (fun _ w' hw' => ?_) fun w' hw' => ?_
  · rw [h.values_eq]
    exact Contract.Met.values_eq (c := c.relaxed (w.document c.document)) hw'
  · unfold Contract.Fallen at hw'
    rw [hfailed] at hw'
    exact hw'

/-- **An input event stores the live value of its target**, on a component that keeps its contract. -/
theorem fire_stores (h : (c.withValues (· = values)).Met .idle w)
    (hfailed : c.failed = fun _ => False)
    (habove : ∀ n, ∀ m ∈ (w.document c.document).ancestors n, m < (w.document c.document).size)
    (hnode : node < (w.document c.document).size) (bubbles : Bool) :
    Stores w c.document c.id (.fresh "input" node bubbles) ((w.document c.document).liveText node)
      (fire quiet c.document (.fresh "input" node bubbles) w) := by
  refine stores_of_after h hfailed ?_
  exact fire_underway (c := c.relaxed (w.document c.document)) (fun _ h => h)
    (Document.lt_of_mem_path habove hnode bubbles) w ⟨h.relaxed, rfl⟩

/-- **An edit stores what was typed**, or the empty text if the node takes no value. -/
theorem edit_stores (h : (c.withValues (· = values)).Met .idle w)
    (hfailed : c.failed = fun _ => False)
    (habove : ∀ n, ∀ m ∈ (w.document c.document).ancestors n, m < (w.document c.document).size)
    (hnode : node < (w.document c.document).size) (value : String) :
    Stores w c.document c.id (.fresh "input" node true)
      (if ((w.document c.document).content node).element?.isSome then value else "")
      (edit quiet c.document node value w) := by
  refine stores_of_after h hfailed ?_
  have hedit : Triple (· = w) (edit (κ := κ) quiet c.document node value)
      (fun _ => ((c.relaxed (w.document c.document)).withValues (· = stored values
        ((w.document c.document).carriedKeys c.id
          (node :: if true then (w.document c.document).ancestors node else []))
        (.str (if ((w.document c.document).content node).element?.isSome then value else "")))).Met
          .idle) c.Fallen := by
    unfold edit
    refine Triple.bind (Triple.discard (editDocument_spec ?_) fun _ _ h => h) fun _ =>
      Triple.bind (fire_underway (c := c.relaxed (w.document c.document)) (fun _ h => h)
        (Document.lt_of_mem_path habove hnode true)) fun _ => Triple.pure fun _ h => h
    rintro w' rfl
    obtain ⟨changed, e, hset, hrevises⟩ := Document.setValue_spec hnode value
    rw [hset]
    refine ⟨h.relaxed.assign hrevises, ?_⟩
    show ((w'.setDocument c.document e).document c.document).liveText node = _
    have hlt : c.document < w'.documents.size := h.document_lt
    rw [World.document_setDocument hlt]
    exact Document.liveText_assign hrevises
  exact hedit w rfl

end Run

/-- The page of a root of a coherent document is coherent. -/
theorem Reference.coherent_page {d : Document (Action κ)} (hd : d.Coherent) (options : Options)
    (root : NodeId) : (Reference.ofDocument d options root).page.Coherent :=
  Template.coherent_mount hd (Template.sound_shown _ _)

/-- **An input event stores the live value of its target.** However a component is made and written to,
an input event on any node of its document does not fault, and afterwards every key to which a listener
on the way of the event carries edits has one text: the live value that the target had when the event
was fired, and the empty text if it had none, whichever element the listener belongs to. All other keys
keep their values. So does an edit by a person, with what was typed for the live value. -/
theorem input_stores_target (source : String) (config : Config Writes) (created : Option Writes)
    (writes : Writes) (host : σ) :
    WhenMade (fun w document id => ∀ node < (w.document document).size,
        (∀ bubbles, Run.Stores w document id (.fresh "input" node bubbles)
          ((w.document document).liveText node)
          (Run.fire Run.quiet document (.fresh "input" node bubbles) w)) ∧
        ∀ value, Run.Stores w document id (.fresh "input" node true)
          (if ((w.document document).content node).element?.isSome then value else "")
          (Run.edit Run.quiet document node value w))
      (Run.incremental source config created writes (World.ofHost host)) := by
  refine (Run.whenMade_incremental source config created writes host).mono ?_
  rintro w document id ⟨d, root, selector, ⟨rfl, rfl⟩, hparse, -, -, hshows⟩ node hnode
  have hpage := Reference.coherent_page (Document.coherent_of_parse hparse) config.options root
  obtain ⟨-, -, ⟨hlinks, -⟩, -⟩ := hshows.read
  have habove : ∀ n, ∀ m ∈ (w.document 0).ancestors n, m < (w.document 0).size := by
    intro n m hm
    rw [Document.ancestors_of_sameLinks hlinks] at hm
    exact hlinks.size.symm ▸ hpage.ancestor_lt hm
  obtain ⟨c, hc, hw⟩ := hshows
  rw [← hc.document] at habove hnode
  have hfire := Run.fire_stores hw hc.failed habove hnode
  have hedit := Run.edit_stores hw hc.failed habove hnode
  rw [hc.document, hc.id] at hfire hedit
  exact ⟨hfire, hedit⟩

/-- A choice that is bound to a key, with an option within. -/
def choicePage : String :=
  "<div id=app><select v-model=k><option>x</option></select><p>{{ k }}</p></div>"

/-- A component on it. -/
def choice : Config Writes where
  el := "#app"
  data := [("k", .str "a")]
  methods := []
  created := none
  mounted := none
  options := {}

theorem input_stores_target_option :
    ∃ w w' w'' : World Writes Unit,
      Run.incremental choicePage choice none [] (World.ofHost ()) = .ok (.ok (0, 0)) w ∧
        -- the choice is node 9, and its key has its live value; the option is node 10
        (w.document 0).carriedKeys 0 [9] = ["k"] ∧ (w.document 0).liveText 9 = "a" ∧
          (w.document 0).parent? 10 = some 9 ∧ w.values 0 "k" = some (.str "a") ∧
            (∃ made, Run.fire Run.quiet 0 (.fresh "input" 10 true) w = .ok made w') ∧
              w'.values 0 "k" = some (.str "") ∧
                (∃ ran, Run.edit Run.quiet 0 10 "y" w = .ok ran w'') ∧
                  w''.values 0 "k" = some (.str "y") := by
  have hstores := input_stores_target choicePage choice none [] ()
  have hrun : makes (fun w document id => decide ((document = 0 ∧ id = 0) ∧
      10 < (w.document 0).size ∧ (w.document 0).carriedKeys 0 [9] = ["k"] ∧
        (w.document 0).liveText 9 = "a" ∧ (w.document 0).parent? 10 = some 9 ∧
          w.values 0 "k" = some (.str "a") ∧ w.boundOnPath 0 0 (.fresh "input" 10 true) = ["k"] ∧
            (w.document 0).liveText 10 = "" ∧ ((w.document 0).content 10).element?.isSome = true))
      (Run.incremental (σ := Unit) choicePage choice none [] (World.ofHost ())) = true := by
    decide +kernel
  obtain ⟨w, document, id, hmade, htest⟩ := exists_of_makes hrun
  obtain ⟨⟨rfl, rfl⟩, hlt, hkeys, hlive, hparent, hvalue, hbound, hempty, helement⟩ :=
    of_decide_eq_true htest
  rw [hmade] at hstores
  obtain ⟨hfire, hedit⟩ := hstores 10 hlt
  replace hfire := hfire true
  replace hedit := hedit "y"
  unfold Run.Stores Run.After at hfire hedit
  rw [hbound] at hfire hedit
  rw [hempty] at hfire
  rw [if_pos helement] at hedit
  have hstored : ∀ text, stored (w.values 0) ["k"] (.str text) "k" = some (.str text) := by
    intro text
    rw [stored_singleton]
    unfold overwritten
    rw [if_pos rfl, hvalue]
    rfl
  cases hf : Run.fire Run.quiet 0 (.fresh "input" 10 true) w with
  | error f w' =>
    rw [hf] at hfire
    exact hfire.elim
  | ok made w' =>
    rw [hf] at hfire
    cases he : Run.edit Run.quiet 0 10 "y" w with
    | error f w'' =>
      rw [he] at hedit
      exact hedit.elim
    | ok ran w'' =>
      rw [he] at hedit
      refine ⟨w, w', w'', hmade, hkeys, hlive, hparent, hvalue, ⟨made, hf⟩, ?_, ⟨ran, he⟩, ?_⟩
      · exact (congrFun hfire "k").trans (hstored "")
      · exact (congrFun hedit "k").trans (hstored "y")

/-- The choice is node 9, with a live value of its own; an event at the option within, node 10, empties
the key of the choice. -/
theorem choice_emptied :
    makes (fun w document id =>
        match Run.fire Run.quiet document (.fresh "input" 10 true) w with
        | .ok _ w' => decide ((w.document document).carriedKeys id [9] = ["k"] ∧
            (w.document document).liveText 9 = "a" ∧ w'.values id "k" = some (.str ""))
        | .error _ _ => false)
      (Run.incremental (σ := Unit) choicePage choice none [] (World.ofHost ())) = true := by
  decide +kernel

end BoundView
