import Mathlib.Algebra.GroupWithZero.Nat
import BoundView.Proofs.Component.Sparing

/-!
# How an event propagates

An event goes to its target and, if it bubbles, to all nodes above the target. Which nodes these are is
settled when its dispatch begins; which listeners run at one of them is settled when the dispatch arrives
there. Whatever the listeners do meanwhile, nothing else is of influence but that the event is stopped.

A dispatch is told as a history: **stays** at nodes, and in each of them the **turns** of listeners, all
with the worlds in which they begin and end. A listener may fault, and this ends the dispatch in its
turn; there is no other way for a dispatch to fail.

Main statements: `runActions_turns`, `visit_delivers`, `dispatch_delivers`.
-/

namespace BoundView

open BoundView.Dom (Document Listener NodeId)
open BoundView.World (Attends)

/-! ## The way of an event -/

namespace Dom.Document

variable {κ : Type}

/-- **A lineage**: a node and those above it, each behind the one that it is the parent of, up to one
without a parent. -/
structure IsLineage (d : Document κ) (id : NodeId) (path : List NodeId) : Prop where
  head : path.head? = some id
  chain : path.IsChain d.Link
  top : ∀ top, path.getLast? = some top → d.parent? top = none

/-- **The way of an event**: its target, and the nodes above the target if the event bubbles. -/
def IsWay (d : Document κ) (target : NodeId) (bubbles : Bool) (path : List NodeId) : Prop :=
  if bubbles then d.IsLineage target path else path = [target]

variable {d : Document κ}

theorem Coherent.parent?_top (h : d.Coherent) {id top : NodeId}
    (htop : (id :: d.ancestors id).getLast? = some top) : d.parent? top = none := by
  induction hline : d.ancestors id generalizing id with
  | nil =>
    cases hp : d.parent? id with
    | none =>
      rw [hline] at htop
      rw [← Option.some.inj htop]
      exact hp
    | some p =>
      rw [h.ancestors_of_link hp] at hline
      cases hline
  | cons p line ih =>
    cases hp : d.parent? id with
    | none =>
      rw [h.ancestors_eq, hp] at hline
      cases hline
    | some q =>
      rw [h.ancestors_of_link hp, List.getLast?_cons_cons] at htop
      rw [h.ancestors_of_link hp] at hline
      exact ih htop (List.cons.inj hline).2

/-- **In a coherent document** the walk upward is the lineage. -/
theorem Coherent.isLineage (h : d.Coherent) (id : NodeId) : d.IsLineage id (id :: d.ancestors id) where
  head := rfl
  chain := isChain_climb d.size id
  top _ htop := h.parent?_top htop

end Dom.Document

variable {κ σ : Type}

theorem World.isWay_path {w : World κ σ} {document : DocumentId} (h : (w.document document).Coherent)
    (e : Event) : (w.document document).IsWay e.target e.bubbles (w.path document e) := by
  unfold Document.IsWay World.path
  cases e.bubbles with
  | true => exact h.isLineage e.target
  | false => rfl

/-! ## Histories -/

/-- **A listener's turn**, from the world in which it begins to the one that it leaves. -/
structure Turn (κ σ : Type) where
  listener : Listener (Action κ)
  before : World κ σ
  after : World κ σ

/-- **A stay at a node**, from the world in which the dispatch arrives there to the one that the last
listener leaves. -/
structure Stay (κ σ : Type) where
  node : NodeId
  arrival : World κ σ
  turns : List (Turn κ σ)
  departure : World κ σ

/-- Steps **follow** one another from a world to a world: each begins where the one before has ended. -/
def Follow {α : Type} (first last : α → World κ σ) (w : World κ σ) : List α → World κ σ → Prop
  | [], w' => w' = w
  | step :: steps, w' => first step = w ∧ Follow first last (last step) steps w'

section

variable (handle : Handle κ σ) (event : EventId)

/-- **Turns that were had**, from a world to a world. -/
structure Turns (w : World κ σ) (turns : List (Turn κ σ)) (w' : World κ σ) : Prop where
  follow : Follow Turn.before Turn.after w turns w'
  ran : ∀ t ∈ turns, Run.runAction handle event t.listener.action t.before = .ok () t.after

variable (document : DocumentId) (type : String) (spared : Prop)

/-- **A stay in which some listeners are still due.** The others had their turns. All of them are the
listeners for the type of the event which the node had when the dispatch arrived, in their order; and
each found the event at this node, if no other dispatch of it was begun. -/
structure Stay.Runs (s : Stay κ σ) (due : List (Listener (Action κ))) : Prop where
  listeners : s.turns.map Turn.listener ++ due =
    (s.arrival.document document).listenersFor s.node type
  turns : Turns handle event (s.arrival.modifyEvent event fun e => { e with current := some s.node })
    s.turns s.departure
  current : spared → ∀ t ∈ s.turns, (t.before.event event).current = some s.node

/-- **Stays at the first nodes of a way**, in which every listener had its turn. -/
structure Stays (way : List NodeId) (w : World κ σ) (stays : List (Stay κ σ)) (w' : World κ σ) :
    Prop where
  nodes : stays.map Stay.node <+: way
  follow : Follow Stay.arrival Stay.departure w stays w'
  runs : ∀ s ∈ stays, s.Runs handle event document type spared []

/-- **A whole delivery.** The event went on as long as it was not stopped, and no farther than it could;
so many listeners had their turns. -/
structure Delivered (way : List NodeId) (w : World κ σ) (stays : List (Stay κ σ)) (w' : World κ σ)
    (ran : Nat) : Prop extends Stays handle event document type spared way w stays w' where
  unstopped : ∀ s ∈ stays.dropLast, (s.departure.event event).stopped = false
  ended : stays.map Stay.node = way ∨
    ∃ s, stays.getLast? = some s ∧ (s.departure.event event).stopped = true
  count : ran = (stays.map fun s => s.turns.length).sum

/-- **A delivery that ended with a fault**: that of the listener whose turn it was. -/
structure Interrupted (way : List NodeId) (w : World κ σ) (stays : List (Stay κ σ)) (s : Stay κ σ)
    (listener : Listener (Action κ)) (due : List (Listener (Action κ))) (fault : Fault)
    (left : World κ σ) : Prop extends Stays handle event document type spared way w stays s.arrival where
  unstopped : ∀ s ∈ stays, (s.departure.event event).stopped = false
  next : stays.map Stay.node ++ [s.node] <+: way
  last : s.Runs handle event document type spared (listener :: due)
  current : spared → (s.departure.event event).current = some s.node
  faulted : Run.runAction handle event listener.action s.departure = .error fault left

/-- **What a walk along a way leaves**: a whole delivery or an interrupted one. -/
def Delivers (way : List NodeId) (w : World κ σ) : EStateM.Result Fault (World κ σ) Nat → Prop
  | .ok ran w' => ∃ stays, Delivered handle event document type spared way w stays w' ran
  | .error fault left => ∃ stays s listener due,
      Interrupted handle event document type spared way w stays s listener due fault left

end

/-! ## Putting histories together -/

section

variable {handle : Handle κ σ} {event : EventId} {document : DocumentId} {type : String} {spared : Prop}
  {way : List NodeId} {w w' : World κ σ} {s : Stay κ σ} {stays : List (Stay κ σ)}

theorem Turns.nil (w : World κ σ) : Turns handle event w [] w where
  follow := rfl
  ran _ ht := absurd ht List.not_mem_nil

theorem Turns.cons {v : World κ σ} {listener : Listener (Action κ)} {turns : List (Turn κ σ)}
    (hturn : Run.runAction handle event listener.action w = .ok () v)
    (h : Turns handle event v turns w') :
    Turns handle event w (⟨listener, w, v⟩ :: turns) w' where
  follow := ⟨rfl, h.follow⟩
  ran := List.forall_mem_cons.mpr ⟨hturn, h.ran⟩

/-- Where no listener is due any more, each of them had one turn. -/
theorem Stay.Runs.length (h : s.Runs handle event document type spared []) :
    s.turns.length = ((s.arrival.document document).listenersFor s.node type).length := by
  rw [← h.listeners, List.append_nil, List.length_map]

theorem Stays.nil (way : List NodeId) (w : World κ σ) :
    Stays handle event document type spared way w [] w where
  nodes := List.nil_prefix
  follow := rfl
  runs _ hs := absurd hs List.not_mem_nil

theorem Stays.cons (hs : s.Runs handle event document type spared [])
    (h : Stays handle event document type spared way s.departure stays w') :
    Stays handle event document type spared (s.node :: way) s.arrival (s :: stays) w' where
  nodes := List.cons_prefix_cons.mpr ⟨rfl, h.nodes⟩
  follow := ⟨rfl, h.follow⟩
  runs := List.forall_mem_cons.mpr ⟨hs, h.runs⟩

/-- The way is at its end. -/
theorem Delivered.nil (w : World κ σ) : Delivered handle event document type spared [] w [] w 0 where
  toStays := .nil [] w
  unstopped _ hs := absurd hs List.not_mem_nil
  ended := .inl rfl
  count := rfl

/-- The event was stopped at the first node. -/
theorem Delivered.stopped (hs : s.Runs handle event document type spared [])
    (hstopped : (s.departure.event event).stopped = true) :
    Delivered handle event document type spared (s.node :: way) s.arrival [s] s.departure
      s.turns.length where
  toStays := .cons hs (.nil way _)
  unstopped _ hs := absurd hs List.not_mem_nil
  ended := .inr ⟨s, rfl, hstopped⟩
  count := rfl

/-- The event went on from the first node. -/
theorem Delivered.cons (hs : s.Runs handle event document type spared [])
    (hgoes : (s.departure.event event).stopped = false) {ran : Nat}
    (h : Delivered handle event document type spared way s.departure stays w' ran) :
    Delivered handle event document type spared (s.node :: way) s.arrival (s :: stays) w'
      (s.turns.length + ran) where
  toStays := .cons hs h.toStays
  unstopped := by
    cases stays with
    | nil => exact fun _ hs => absurd hs List.not_mem_nil
    | cons t stays => exact List.forall_mem_cons.mpr ⟨hgoes, h.unstopped⟩
  ended := by
    rcases h.ended with hall | ⟨t, hlast, hstopped⟩
    · exact .inl (congrArg (s.node :: ·) hall)
    · refine .inr ⟨t, ?_, hstopped⟩
      rw [List.getLast?_cons, hlast]
      rfl
  count := by rw [h.count, List.map_cons, List.sum_cons]

theorem Interrupted.cons (hs : s.Runs handle event document type spared [])
    (hgoes : (s.departure.event event).stopped = false) {t : Stay κ σ}
    {listener : Listener (Action κ)} {due : List (Listener (Action κ))} {fault : Fault}
    (h : Interrupted handle event document type spared way s.departure stays t listener due fault w') :
    Interrupted handle event document type spared (s.node :: way) s.arrival (s :: stays) t listener due
      fault w' where
  toStays := .cons hs h.toStays
  unstopped := List.forall_mem_cons.mpr ⟨hgoes, h.unstopped⟩
  next := List.cons_prefix_cons.mpr ⟨rfl, h.next⟩
  last := h.last
  current := h.current
  faulted := h.faulted

/-- A walk goes on from the first node. -/
theorem Delivers.cons (hs : s.Runs handle event document type spared [])
    (hgoes : (s.departure.event event).stopped = false) {rest : Run κ σ Nat}
    (h : Delivers handle event document type spared way s.departure (rest s.departure)) :
    Delivers handle event document type spared (s.node :: way) s.arrival
      ((do
        let later ← rest
        pure (s.turns.length + later) : Run κ σ Nat) s.departure) := by
  cases hresult : rest s.departure with
  | ok ran w' =>
    rw [hresult] at h
    obtain ⟨stays, hstays⟩ := h
    rw [Run.bind_ok hresult]
    exact ⟨_, .cons hs hgoes hstays⟩
  | error fault left =>
    rw [hresult] at h
    obtain ⟨stays, t, listener, due, hstays⟩ := h
    rw [Run.bind_error hresult]
    exact ⟨_, t, listener, due, .cons hs hgoes hstays⟩

end

/-! ## Listeners -/

/-- **What is known of an event at a node**: its type, and where it is if no other dispatch of it was
begun. -/
def AtNode (type : String) (spared : Prop) (node : NodeId) (e : Event) : Prop :=
  e.type = type ∧ (spared → e.current = some node)

namespace Run

variable {handle : Handle κ σ} {event : EventId}

/-- **Listeners have their turns one after the other**, up to the first that faults; and a property that
each of them keeps holds whenever one begins. -/
theorem runActions_turns {I : World κ σ → Prop}
    (hkeeps : ∀ action, Keeps I (runAction handle event action))
    (listeners : List (Listener (Action κ))) {w : World κ σ} (hw : I w) :
    match runActions handle event (listeners.map (·.action)) w with
    | .ok () w' => ∃ turns, turns.map Turn.listener = listeners ∧ Turns handle event w turns w' ∧
        (∀ t ∈ turns, I t.before) ∧ I w'
    | .error fault left => ∃ turns w' listener due,
        turns.map Turn.listener ++ listener :: due = listeners ∧ Turns handle event w turns w' ∧
        (∀ t ∈ turns, I t.before) ∧ I w' ∧
        runAction handle event listener.action w' = .error fault left := by
  induction listeners generalizing w with
  | nil => exact ⟨[], rfl, .nil w, fun t ht => absurd ht List.not_mem_nil, hw⟩
  | cons listener listeners ih =>
    cases hturn : runAction handle event listener.action w with
    | error fault left =>
      have hrun : runActions handle event ((listener :: listeners).map (·.action)) w =
          .error fault left := bind_error hturn
      rw [hrun]
      refine ⟨[], w, listener, listeners, rfl, .nil w, ?_, hw, hturn⟩
      exact fun t ht => absurd ht List.not_mem_nil
    | ok _ v =>
      have hrun : runActions handle event ((listener :: listeners).map (·.action)) w =
          runActions handle event (listeners.map (·.action)) v := bind_ok hturn
      have hrest := ih ((hkeeps listener.action).of_ok hw hturn)
      rw [hrun]
      cases hresult : runActions handle event (listeners.map (·.action)) v with
      | ok _ w' =>
        rw [hresult] at hrest
        obtain ⟨turns, hlisteners, hturns, hbefore, hw'⟩ := hrest
        refine ⟨⟨listener, w, v⟩ :: turns, congrArg (listener :: ·) hlisteners, .cons hturn hturns, ?_, hw'⟩
        exact List.forall_mem_cons.mpr ⟨hw, hbefore⟩
      | error fault left =>
        rw [hresult] at hrest
        obtain ⟨turns, w', last, due, hlisteners, hturns, hbefore, hw', hfault⟩ := hrest
        refine ⟨⟨listener, w, v⟩ :: turns, w', last, due, congrArg (listener :: ·) hlisteners,
          .cons hturn hturns, ?_, hw', hfault⟩
        exact List.forall_mem_cons.mpr ⟨hw, hbefore⟩

/-! ## Nodes -/

variable {document : DocumentId}

/-- **Arriving at a node** of the document: first come the listeners of this node. -/
theorem visit_arrives {w : World κ σ} {node : NodeId} (hnode : node < (w.document document).size)
    (path : List NodeId) :
    visit handle document event (node :: path) w =
      (do
        let due := (w.document document).listenersFor node (w.event event).type
        runActions handle event (due.map (·.action))
        if ((← get).event event).stopped then pure due.length
        else do
          let later ← visit handle document event path
          pure (due.length + later) : Run κ σ Nat)
        (w.modifyEvent event fun e => { e with current := some node }) := by
  obtain ⟨n, hn⟩ := (w.document document).exists_node hnode
  have hread : readDocument document (·.node node) w = .ok n w :=
    readDocument_ok (·.node node) ((w.document document).node_eq_ok_iff.mpr hn)
  have hdiscard : discard (readDocument document (·.node node)) w = .ok () w := by
    show EStateM.map (fun _ => ()) (readDocument document (·.node node)) w = _
    unfold EStateM.map
    rw [hread]
  rw [visit, bind_ok hdiscard]
  simp only [List.length_map]
  rfl

/-- **The listeners of a node have their turns**, all of them or up to one that faults. -/
theorem runActions_stay {type : String} {spared : Prop} {n : Nat} {node : NodeId}
    (hkeeps : ∀ action, Keeps (Attends event (AtNode type spared node) document n)
      (runAction handle event action))
    {w : World κ σ} (hw : w.Attends event (fun e => e.type = type) document n) (way : List NodeId) :
    match runActions handle event (((w.document document).listenersFor node type).map (·.action))
      (w.modifyEvent event fun e => { e with current := some node }) with
    | .ok () w' => ∃ turns, Stay.Runs handle event document type spared ⟨node, w, turns, w'⟩ [] ∧
        w'.Attends event (fun e => e.type = type) document n
    | .error fault left => ∃ turns w' listener due,
        Interrupted handle event document type spared (node :: way) w [] ⟨node, w, turns, w'⟩ listener
          due fault left := by
  have harrived : (w.modifyEvent event fun e => { e with current := some node }).Attends event
      (AtNode type spared node) document n :=
    hw.modifyEvent (fun _ e he => ⟨he, fun _ => rfl⟩) fun hne => absurd rfl hne
  have hturns := runActions_turns hkeeps ((w.document document).listenersFor node type) harrived
  cases hran : runActions handle event (((w.document document).listenersFor node type).map (·.action))
      (w.modifyEvent event fun e => { e with current := some node }) with
  | ok _ w' =>
    rw [hran] at hturns
    obtain ⟨turns, hlisteners, hhad, hbefore, hw'⟩ := hturns
    exact ⟨turns, ⟨(List.append_nil _).trans hlisteners, hhad,
      fun hspared t ht => (hbefore t ht).read.2 hspared⟩, hw'.mono fun e he => he.1⟩
  | error fault left =>
    rw [hran] at hturns
    obtain ⟨turns, w', listener, due, hlisteners, hhad, hbefore, hw', hfault⟩ := hturns
    exact ⟨turns, w', listener, due, {
      toStays := .nil _ w
      unstopped := fun _ hs => absurd hs List.not_mem_nil
      next := List.cons_prefix_cons.mpr ⟨rfl, List.nil_prefix⟩
      last := ⟨hlisteners, hhad, fun hspared t ht => (hbefore t ht).read.2 hspared⟩
      current := hw'.read.2
      faulted := hfault }⟩

/-- **A walk along a way delivers the event**, if all listeners attend it. -/
theorem visit_delivers {type : String} {spared : Prop} {n : Nat}
    (hkeeps : ∀ node action, Keeps (Attends event (AtNode type spared node) document n)
      (runAction handle event action)) {way : List NodeId} (hway : ∀ node ∈ way, node < n)
    {w : World κ σ} (hw : w.Attends event (fun e => e.type = type) document n) :
    Delivers handle event document type spared way w (visit handle document event way w) := by
  induction way generalizing w with
  | nil => exact ⟨[], .nil w⟩
  | cons node way ih =>
    obtain ⟨hnode, hrest⟩ := List.forall_mem_cons.mp hway
    have hstay := runActions_stay (hkeeps node) hw way
    rw [visit_arrives (Nat.lt_of_lt_of_le hnode hw.size), hw.read]
    dsimp only
    cases hran : runActions handle event
        (((w.document document).listenersFor node type).map (·.action))
        (w.modifyEvent event fun e => { e with current := some node }) with
    | error fault left =>
      rw [hran] at hstay
      obtain ⟨turns, w', listener, due, hinterrupted⟩ := hstay
      rw [bind_error hran]
      exact ⟨[], ⟨node, w, turns, w'⟩, listener, due, hinterrupted⟩
    | ok _ w' =>
      rw [hran] at hstay
      obtain ⟨turns, hruns, hw'⟩ := hstay
      have hcount : turns.length = ((w.document document).listenersFor node type).length := hruns.length
      rw [bind_ok hran, ← hcount]
      show Delivers handle event document type spared (node :: way) w
        ((ite ((w'.event event).stopped = true) _ _ : Run κ σ Nat) w')
      by_cases hstopped : (w'.event event).stopped = true
      · rw [if_pos hstopped]
        exact ⟨_, .stopped hruns hstopped⟩
      · rw [if_neg hstopped]
        exact .cons hruns (Bool.eq_false_of_not_eq_true hstopped) (ih hrest hw')

end Run

/-! ## Whole dispatches -/

/-- A dispatched event is at no node any more. -/
theorem World.current_modifyEvent (w : World κ σ) (event : EventId) :
    ((w.modifyEvent event fun e => { e with current := none }).event event).current = none := by
  unfold World.event
  rw [Array.getD_eq_getD_getElem?, World.getElem?_events_modifyEvent, if_pos rfl]
  cases w.events[event]? with
  | none => rfl
  | some e => rfl

/-- What is on the way of an event is there. -/
theorem World.lt_of_mem_path {w : World κ σ} {document : DocumentId}
    (h : (w.document document).Coherent) {e : Event} (htarget : e.target < (w.document document).size)
    {node : NodeId} (hnode : node ∈ w.path document e) : node < (w.document document).size := by
  unfold World.path at hnode
  rcases List.mem_cons.mp hnode with rfl | habove
  · exact htarget
  · split at habove
    · exact h.ancestor_lt habove
    · cases habove

/-- **Every listener attends an event**, and leaves it at its node if user code spares it. -/
theorem Customs.attends_runAction (customs : Customs κ σ) (depth : Nat) (event : EventId) (type : String)
    (document : DocumentId) (n : Nat) (node : NodeId) (action : Action κ) :
    Run.Keeps (Attends event (AtNode type (customs.Spares event) node) document n)
      (Run.runAction (customs.handle depth) event action) := by
  have hstop : ∀ e, AtNode type (customs.Spares event) node e →
      AtNode type (customs.Spares event) node { e with stopped := true } := fun _ h => h
  have hspares : customs.Spares event ∨ ∀ e current, AtNode type (customs.Spares event) node e →
      AtNode type (customs.Spares event) node { e with current := current } := by
    by_cases hspares : customs.Spares event
    · exact .inl hspares
    · exact .inr fun e current h => ⟨h.1, fun hs => absurd hs hspares⟩
  have hdurable : World.Durable (fun w : World κ (Diary κ σ) =>
      w.Attends event (AtNode type (customs.Spares event) node) document n)
      ⟨(· ≠ event), fun _ => True, False⟩ :=
    World.durable_attends hstop (fun hne => absurd rfl hne) fun _ hlt => Nat.ne_of_gt hlt
  exact Run.keeps_runAction hdurable (Run.attends_handle hstop hspares depth) event action

/-- A dispatch walks along the way of the event, and then the event is at no node any more. -/
theorem Run.dispatch_eq (handle : Handle κ σ) (document : DocumentId) {event : EventId} {e : Event}
    {w : World κ σ} (hevent : w.events[event]? = some e) :
    Run.dispatch handle document event w =
      (do
        let ran ← Run.visit handle document event (w.path document e)
        modify (·.modifyEvent event fun e => { e with current := none })
        pure ran : Run κ σ Nat) (w.tell [.dispatching e.type e.target]) := by
  rw [← World.event_of_getElem? hevent]
  rfl

/-- **An event is delivered as it should be, whatever its listeners do.** They may make, move and detach
nodes, add and remove listeners, dispatch further events and stop this one. Still it goes to its target
and, if it bubbles, to the nodes that were above the target when its dispatch began, from the inside
out. At each of them those listeners have their turns, in order, that were registered there for its type
when it arrived, and each finds it at this node, unless user code dispatches this very event once more.
It goes on until it was stopped. The answer counts the turns, and the event is at no node any more.

A dispatch comes to this end, but for a listener that faults: then all this is true up to its turn. -/
theorem dispatch_delivers (customs : Customs κ σ) (depth : Nat) {document : DocumentId}
    {event : EventId} {type : String} {target : NodeId} {bubbles : Bool} {w : World κ (Diary κ σ)}
    (hdocument : document < w.documents.size) (hcoherent : (w.document document).Coherent)
    (htarget : target < (w.document document).size)
    (hevent : w.events[event]? = some (.fresh type target bubbles)) :
    ∃ way, (w.document document).IsWay target bubbles way ∧
      match Run.dispatch (customs.handle depth) document event w with
      | .ok ran w' => (w'.event event).current = none ∧ ∃ stays last,
          Delivered (customs.handle depth) event document type (customs.Spares event) way
            (w.tell [.dispatching type target]) stays last ran ∧
          w' = last.modifyEvent event fun e => { e with current := none }
      | .error fault left => ∃ stays s listener due,
          Interrupted (customs.handle depth) event document type (customs.Spares event) way
            (w.tell [.dispatching type target]) stays s listener due fault left := by
  have hattends : (w.tell [.dispatching type target]).Attends event (fun e => e.type = type) document
      (w.document document).size := ⟨⟨_, hevent, rfl⟩, hdocument, Nat.le_refl _⟩
  have hvisit := Run.visit_delivers (customs.attends_runAction depth event type document _)
    (fun node hnode => World.lt_of_mem_path (e := .fresh type target bubbles) hcoherent htarget hnode)
    hattends
  have hway : (w.document document).IsWay target bubbles
      (w.path document (.fresh type target bubbles)) := World.isWay_path hcoherent (.fresh type target bubbles)
  refine ⟨w.path document (.fresh type target bubbles), hway, ?_⟩
  have hdispatch : Run.dispatch (customs.handle depth) document event w =
      (do
        let ran ← Run.visit (customs.handle depth) document event
          (w.path document (.fresh type target bubbles))
        modify (·.modifyEvent event fun e => { e with current := none })
        pure ran : Run κ (Diary κ σ) Nat) (w.tell [.dispatching type target]) :=
    Run.dispatch_eq (customs.handle depth) document hevent
  rw [hdispatch]
  cases hresult : Run.visit (customs.handle depth) document event
      (w.path document (.fresh type target bubbles)) (w.tell [.dispatching type target]) with
  | ok ran last =>
    rw [hresult] at hvisit
    obtain ⟨stays, hstays⟩ := hvisit
    rw [Run.bind_ok hresult]
    exact ⟨last.current_modifyEvent event, stays, last, hstays, rfl⟩
  | error fault left =>
    rw [hresult] at hvisit
    rw [Run.bind_error hresult]
    exact hvisit

/-- Unruly listeners: one detaches the parent of its node, gives it a listener and clicks on what was
above it; the other one stops its event. -/
def unruly : Customs Bool Unit
  | true, .event _ =>
    .ask (.edit 0 (.remove 2 3)) fun _ => .ask (.edit 0 (.listen 3 "click" (.handler false))) fun _ =>
      .ask (.click 0 2) fun _ => .done
  | false, .event event => .ask (.stop event) fun _ => .done
  | _, _ => .done

/-- A click is on its way to the innermost of three nodes, which has an unruly listener. -/
def unrulyWorld : World Bool (Diary Bool Unit) :=
  { World.ofHost ⟨(), [], []⟩ with
    documents := #[Document.reached [.appendMarkup Document.root "<ul><li><b>x</b></li></ul>",
      .listen 4 "click" (.handler true)]]
    events := #[.fresh "click" 4 true] }

theorem dispatch_delivers_unruly :
    unruly.Spares 0 ∧ ∃ way stays last w',
      (unrulyWorld.document 0).IsWay 4 true way ∧
      Run.dispatch (unruly.handle 3) 0 0 unrulyWorld = .ok 2 w' ∧ (w'.event 0).current = none ∧
      Delivered (unruly.handle 3) 0 0 "click" (unruly.Spares 0) way
        (unrulyWorld.tell [.dispatching "click" 4]) stays last 2 := by
  have hspares : unruly.Spares 0 := by
    intro run occasion
    unfold unruly
    split <;> simp [Conduct.Spares]
  have hdocument : 0 < unrulyWorld.documents.size := by decide
  have hcoherent : (unrulyWorld.document 0).Coherent := Document.coherent_reached _
  have htarget : 4 < (unrulyWorld.document 0).size := by decide +kernel
  have hevent : unrulyWorld.events[0]? = some (.fresh "click" 4 true) := rfl
  obtain ⟨way, hway, hdelivers⟩ := dispatch_delivers unruly 3 hdocument hcoherent htarget hevent
  refine ⟨hspares, ?_⟩
  have hran : (match Run.dispatch (unruly.handle 3) 0 0 unrulyWorld with
      | .ok ran _ => some ran
      | .error _ _ => none) = some 2 := by decide +kernel
  cases hresult : Run.dispatch (unruly.handle 3) 0 0 unrulyWorld with
  | error fault left =>
    rw [hresult] at hran
    cases hran
  | ok ran w' =>
    rw [hresult] at hran hdelivers
    obtain rfl := Option.some.inj hran
    obtain ⟨hcurrent, stays, last, hstays, -⟩ := hdelivers
    exact ⟨way, stays, last, w', hway, rfl, hcurrent, hstays⟩

end BoundView
