import BoundView.Proofs.World.Adding
import BoundView.Proofs.World.Audit

/-!
# Edits under way

When a person edits a bound element, the live value is there first; the key follows when the listener that
carries the edit has run, and what runs before it may fail. Until then the element holds something else
than its key says, and is held to nothing. It is **loose** as long as the event is at one of its nodes and
the edit has not **settled**. An event that is at a node after it was settled, on its way up, loosens
nothing.

User code may dispatch an event by itself, and even one that is on its way. Then the event does not tell
any more how far it has come, so such events are noted to be astray, and what they aim at is held to
nothing.

A world is **tended** when it is orderly and stands the audit with loose nodes exempt. Each edit of a world
that a computation makes keeps it tended; an accepted write does, with the scan that follows it.

Main statements: the laws of `World.Tended`; `Tended.accept`.
-/

namespace BoundView

open BoundView.Dom (Document NodeId)
open BoundView.Dom.Document (Grows Retains)
open BoundView.Interpolation (Lookup)

variable {κ σ : Type}

/-- **How far events have come**: edits that have settled, and what some events aim at. -/
structure Course where
  settled : EventId → Prop
  aimed : EventId → NodeId → Prop

namespace Course

/-- Nothing is known of any event. -/
def start : Course := ⟨fun _ => False, fun _ _ => False⟩

/-- An edit settles. -/
def settle (c : Course) (event : EventId) : Course :=
  { c with settled := fun other => c.settled other ∨ other = event }

/-- An event is aimed at a node. -/
def aim (c : Course) (event : EventId) (node : NodeId) : Course :=
  { c with aimed := fun other n => c.aimed other n ∨ other = event ∧ n = node }

theorem settled_settle (c : Course) (event : EventId) : (c.settle event).settled event := .inr rfl

theorem aimed_aim (c : Course) (event : EventId) (node : NodeId) :
    (c.aim event node).aimed event node := .inr ⟨rfl, rfl⟩

/-- More is known of events. -/
structure Extends (c c' : Course) : Prop where
  settled : ∀ event, c.settled event → c'.settled event
  aimed : ∀ event node, c.aimed event node → c'.aimed event node

theorem extends_settle (c : Course) (event : EventId) : c.Extends (c.settle event) :=
  ⟨fun _ => .inl, fun _ _ h => h⟩

theorem extends_aim (c : Course) (event : EventId) (node : NodeId) : c.Extends (c.aim event node) :=
  ⟨fun _ h => h, fun _ _ => .inl⟩

/-- **Edits settle** that are aimed at nodes which were reached, and no others. -/
structure Settles (c c' : Course) (reached : NodeId → Prop) : Prop where
  settled : ∀ event, c'.settled event → c.settled event ∨ ∃ node, c.aimed event node ∧ reached node
  aimed : ∀ event node, c'.aimed event node → c.aimed event node

theorem Settles.refl (c : Course) (reached : NodeId → Prop) : c.Settles c reached :=
  ⟨fun _ => .inl, fun _ _ h => h⟩

theorem settles_settle {c : Course} {event : EventId} {node : NodeId} {reached : NodeId → Prop}
    (haimed : c.aimed event node) (hreached : reached node) :
    c.Settles (c.settle event) reached where
  settled other h := by
    rcases h with h | rfl
    · exact .inl h
    · exact .inr ⟨node, haimed, hreached⟩
  aimed _ _ h := h

end Course

/-- The nodes that a scan for a key reaches. -/
def Audit.Reaches (a : Audit κ σ) (key : String) (node : NodeId) : Prop :=
  ∀ t, a.charter.template = some t →
    node ∈ (t.affected key a.charter.options.syncInputs).map Affected.node

theorem Audit.Binds.reaches {a : Audit κ σ} {key : String} {node : NodeId} (h : a.Binds key node) :
    a.Reaches key node := by
  obtain ⟨t, ht, b, hb, _, rfl⟩ := h.affected
  intro t' ht'
  obtain rfl := Option.some.inj (ht.symm.trans ht')
  exact List.mem_map_of_mem hb

namespace World

/-- **A loose node**: a person's edit of it has not settled, or its event is astray. -/
def Loose (w : World κ σ) (a : Audit κ σ) (c : Course) (node : NodeId) : Prop :=
  ∃ event e, w.events[event]? = some e ∧ e.type = "input" ∧ e.target = node ∧
    (a.astray w.host event ∨ ¬ c.settled event ∧ e.current.isSome = true)

/-- **A tended world.** -/
structure Tended (w : World κ σ) (note : σ → Prop) (a : Audit κ σ) (pending : SubscriberId → Nat)
    (c : Course) : Prop where
  orderly : w.Orderly note pending []
  audited : w.Audited a pending (w.Loose a c) (w.lookup a.charter.store)
  there : ∀ event, c.settled event → event < w.events.size ∨ a.astray w.host event
  aimed : ∀ event node, c.aimed event node → ∃ e, w.events[event]? = some e ∧ e.target = node

/-- What a scan for a key counts. -/
def scanStats (w : World κ σ) (id : ComponentId) (key : String) : PatchStats :=
  match (w.component id).template with
  | none => ⟨0, 0⟩
  | some t => (w.patched (w.component id) t key).stats

/-- **The world once a component has scanned** what it has rendered for a key. -/
def scanned (w : World κ σ) (id : ComponentId) (key : String) : World κ σ :=
  match (w.component id).template with
  | none => w
  | some t =>
    let patched := w.patched (w.component id) t key
    (((w.refreshed id t key).tell [.updating key]).tell patched.traces).tell
      [.updated patched.stats.visited patched.stats.changed]

theorem Orderly.refreshed {w : World κ σ} {note : σ → Prop} {pending : SubscriberId → Nat}
    (h : w.Orderly note pending []) (id : ComponentId) (t : Template) (key : String) :
    (w.refreshed id t key).Orderly note pending [] := by
  have hscanned : (w.modifyComponent id fun c => { c with scans := c.scans + 1 }).Orderly note
      pending [] :=
    h.modifyComponent rfl rfl (fun hpos => hpos) (h.watchers id) (h.housed id) (h.apart id)
  exact hscanned.setDocument (Template.grows_patch _ _ _ _)

theorem Orderly.scanned {w : World κ σ} {note : σ → Prop} {pending : SubscriberId → Nat}
    (h : w.Orderly note pending []) (id : ComponentId) (key : String) :
    (w.scanned id key).Orderly note pending [] := by
  unfold World.scanned
  split
  · exact h
  · rename_i t _
    exact (((h.refreshed id t key).tell _).tell _).tell _

/-- A scan does not read who holds subscribers. -/
theorem scanned_withSubscribers (w : World κ σ) (subscribers : Array (Subscriber κ))
    (id : ComponentId) (key : String) : ({ w with subscribers } : World κ σ).scanned id key =
      { w.scanned id key with subscribers } := by
  unfold World.scanned
  rw [show ({ w with subscribers } : World κ σ).component id = w.component id from rfl]
  split
  · rfl
  · rfl

theorem subscribers_scanned (w : World κ σ) (id : ComponentId) (key : String) :
    (w.scanned id key).subscribers = w.subscribers := by
  unfold World.scanned
  split
  · rfl
  · rfl

namespace Tended

variable {w w' : World κ σ} {note note' : σ → Prop} {a : Audit κ σ}
  {pending pending' : SubscriberId → Nat} {c c' : Course}

/-- **What knows more is tended for less.** -/
theorem mono (h : w.Tended note a pending c') (hextends : c.Extends c') :
    w.Tended note a pending c where
  orderly := h.orderly
  audited := h.audited.mono fun _ ⟨event, e, he, htype, htarget, hway⟩ =>
    ⟨event, e, he, htype, htarget, hway.imp_right fun hopen =>
      ⟨fun hsettled => hopen.1 (hextends.settled event hsettled), hopen.2⟩⟩
  there event hsettled := h.there event (hextends.settled event hsettled)
  aimed event node haimed := h.aimed event node (hextends.aimed event node haimed)

/-- An edit of a world that keeps events and the caller's state. -/
theorem edit (h : w.Tended note a pending c) (horderly : w'.Orderly note pending' [])
    (hevents : w'.events = w.events) (hhost : w'.host = w.host)
    (haudited : w'.Audited a pending' (w.Loose a c) (w'.lookup a.charter.store)) :
    w'.Tended note a pending' c := by
  have hloose : w'.Loose a c = w.Loose a c := by
    unfold Loose
    rw [hevents, hhost]
  refine ⟨horderly, hloose ▸ haudited, ?_, ?_⟩
  · rw [hevents, hhost]
    exact h.there
  · rw [hevents]
    exact h.aimed

theorem withTraces (h : w.Tended note a pending c) (traces : Array Trace) :
    ({ w with traces } : World κ σ).Tended note a pending c :=
  h.edit { h.orderly with } rfl rfl (h.audited.withTraces traces)

theorem tell (h : w.Tended note a pending c) (traces : List Trace) :
    (w.tell traces).Tended note a pending c := h.withTraces _

/-! ## The caller's state -/

/-- User code notes something; each request for a scan is owed. -/
theorem modifyHost (h : w.Tended note a pending c) {f : σ → σ} {scans : Nat}
    (hnote : note w.host → note' (f w.host))
    (hrequests : a.requests (f w.host) = a.requests w.host + scans)
    (hastray : ∀ event, a.astray w.host event → a.astray (f w.host) event) :
    (w.modifyHost f).Tended note' (a.owing scans) pending c where
  orderly := h.orderly.modifyHost f hnote
  audited := (h.audited.modifyHost hrequests).mono fun _ ⟨event, e, he, htype, htarget, hway⟩ =>
    ⟨event, e, he, htype, htarget, hway.imp_left (hastray event)⟩
  there event hsettled := (h.there event hsettled).imp_right (hastray event)
  aimed := h.aimed

/-! ## Events -/

/-- A new event. -/
theorem addEvent (h : w.Tended note a pending c) (e : Event) :
    (w.addEvent e).Tended note a pending c := by
  have hkept : ∀ {event : EventId} {e' : Event}, w.events[event]? = some e' →
      (w.addEvent e).events[event]? = some e' := by
    intro event e' he'
    have hlt := (Array.getElem?_eq_some_iff.mp he').1
    exact (Array.getElem?_push_lt hlt).trans ((Array.getElem?_eq_getElem hlt).symm.trans he')
  refine ⟨h.orderly.addEvent e, (h.audited.withEvents _).mono ?_, fun event hsettled => ?_,
    fun event node haimed => ?_⟩
  · rintro node ⟨event, e', he', htype, htarget, hway⟩
    exact ⟨event, e', hkept he', htype, htarget, hway⟩
  · refine (h.there event hsettled).imp_left fun hlt => ?_
    exact Nat.lt_of_lt_of_le hlt (Nat.le_of_lt (Nat.lt_of_lt_of_eq (Nat.lt_succ_self _)
      (Array.size_push _).symm))
  · obtain ⟨e', he', htarget⟩ := h.aimed event node haimed
    exact ⟨e', hkept he', htarget⟩

/-- An event is changed, but neither its type nor its target; if it is at no node any more, it has
settled. -/
theorem modifyEvent (h : w.Tended note a pending c) {event : EventId} {f : Event → Event}
    (htype : ∀ e, (f e).type = e.type) (htarget : ∀ e, (f e).target = e.target)
    (hcurrent : ∀ e, w.events[event]? = some e → e.current.isSome = true →
      (f e).current.isSome = true ∨ c.settled event) :
    (w.modifyEvent event f).Tended note a pending c := by
  have hkept : ∀ {other : EventId} {e : Event}, w.events[other]? = some e →
      (w.modifyEvent event f).events[other]? = some (if event = other then f e else e) := by
    intro other e he
    rw [getElem?_events_modifyEvent, he]
    split
    · rfl
    · rfl
  refine ⟨h.orderly.modifyEvent event f, (h.audited.withEvents _).mono ?_, fun other hsettled => ?_,
    fun other node haimed => ?_⟩
  · rintro node ⟨other, e, he, hinput, hnode, hway⟩
    refine ⟨other, _, hkept he, ?_, ?_, hway.imp_right fun hopen => ⟨hopen.1, ?_⟩⟩
    · split
      · exact (htype e).trans hinput
      · exact hinput
    · split
      · exact (htarget e).trans hnode
      · exact hnode
    · split
      · rename_i hother
        subst hother
        exact (hcurrent e he hopen.2).resolve_right hopen.1
      · exact hopen.2
  · refine (h.there other hsettled).imp_left fun hlt => ?_
    exact Nat.lt_of_lt_of_eq hlt Array.size_modify.symm
  · obtain ⟨e, he, hnode⟩ := h.aimed other node haimed
    refine ⟨_, hkept he, ?_⟩
    split
    · exact (htarget e).trans hnode
    · exact hnode

/-- An event that is at no node may be taken for settled, and so may one that is astray, or that is no
edit of a node that is bound to a key. -/
theorem settle (h : w.Tended note a pending c) {event : EventId}
    (hrest : (∃ e, w.events[event]? = some e ∧ (e.current = none ∨
      (e.type = "input" → a.plain → ∀ key, ¬ a.Binds key e.target))) ∨ a.astray w.host event) :
    w.Tended note a pending (c.settle event) := by
  refine ⟨h.orderly, h.audited.exempting ?_, ?_, h.aimed⟩
  · rintro node ⟨other, e, he, htype, htarget, hway⟩
    have hloose : (a.astray w.host other ∨ ¬ (c.settle event).settled other ∧ e.current.isSome = true) →
        w.Loose a (c.settle event) node :=
      fun hway => ⟨other, e, he, htype, htarget, hway⟩
    by_cases hother : other = event
    · subst hother
      rcases hrest with ⟨e', he', hnone | hfree⟩ | hastray
      · obtain rfl := Option.some.inj (he.symm.trans he')
        refine .inl (hloose (hway.imp_right fun hopen => ?_))
        rw [hnone] at hopen
        cases hopen.2
      · obtain rfl := Option.some.inj (he.symm.trans he')
        exact .inr fun hplain => htarget ▸ hfree htype hplain
      · exact .inl (hloose (.inl hastray))
    · exact .inl (hloose (hway.imp_right fun hopen => ⟨fun hs => hs.elim hopen.1 hother, hopen.2⟩))
  · rintro other (hsettled | rfl)
    · exact h.there other hsettled
    · refine hrest.imp_left ?_
      rintro ⟨e, he, _⟩
      exact (Array.getElem?_eq_some_iff.mp he).1

/-- What an event is aimed at may be kept in mind. -/
theorem aim (h : w.Tended note a pending c) {event : EventId} {e : Event}
    (he : w.events[event]? = some e) : w.Tended note a pending (c.aim event e.target) where
  orderly := h.orderly
  audited := h.audited
  there := h.there
  aimed other node := by
    rintro (haimed | ⟨rfl, rfl⟩)
    · exact h.aimed other node haimed
    · exact ⟨e, he, rfl⟩

/-- What is known of events has to do with events that are there, or that are astray. -/
theorem within (h : w.Tended note a pending c) {reached : NodeId → Prop}
    (hsettles : c.Settles c' reached) (event : EventId) (hevent : c'.settled event) :
    event < w.events.size ∨ a.astray w.host event := by
  rcases hsettles.settled event hevent with hsettled | ⟨node, hnode, _⟩
  · exact h.there event hsettled
  · obtain ⟨e, he, _⟩ := h.aimed event node hnode
    exact .inl (Array.getElem?_eq_some_iff.mp he).1

/-- **Where nothing is held to anything**, every edit is settled. -/
theorem free (h : w.Tended note a pending c) {reached : NodeId → Prop}
    (hsettles : c.Settles c' reached)
    (hfree : a.plain → w.isAlive a.id = true → a.charter.template = none) :
    w.Tended note a pending c' where
  orderly := h.orderly
  audited := { h.audited with
    fresh := fun hplain halive t ht => by
      rw [hfree hplain halive] at ht
      cases ht }
  there := h.within hsettles
  aimed event node haimed := h.aimed event node (hsettles.aimed event node haimed)

/-! ## Documents -/

theorem pushDocument (h : w.Tended note a pending c) (d : Document (Action κ)) :
    ({ w with documents := w.documents.push d } : World κ σ).Tended note a pending c :=
  h.edit (h.orderly.pushDocument d) rfl rfl (h.audited.pushDocument h.orderly d)

theorem retain (h : w.Tended note a pending c) {id : DocumentId} {d : Document (Action κ)}
    (hgrows : Grows (w.document id) d) (hretains : a.plain → Retains (w.document id) d) :
    (w.setDocument id d).Tended note a pending c :=
  h.edit (h.orderly.setDocument hgrows) rfl rfl (h.audited.retain h.orderly hretains)

/-! ## Cells -/

theorem lookup_storeOther {store : Store} {cell : CellId} (hcell : ∀ key, store.cell? key ≠ some cell)
    (value : Value) : (w.storeValue cell value).lookup store = w.lookup store := by
  funext key
  refine lookup_congr ?_
  unfold World.value?
  cases hkey : store.cell? key with
  | none => rfl
  | some other =>
    have hne : other ≠ cell := by
      rintro rfl
      exact hcell key hkey
    rcases Nat.lt_or_ge cell w.cells.size with hlt | hge
    · rw [Option.map_some, Option.map_some, cell_storeValue hlt, if_neg hne]
    · rw [storeValue_of_size_le hge]

/-- **A value is stored** in a cell of another. -/
theorem storeOther (h : w.Tended note a pending c) {cell : CellId}
    (hcell : ∀ key, a.charter.store.cell? key ≠ some cell) (value : Value) :
    (w.storeValue cell value).Tended note a pending c := by
  refine h.edit (h.orderly.storeValue cell value) rfl rfl ?_
  rw [lookup_storeOther hcell]
  exact h.audited.storeOther hcell value

/-- The cells of the component stay as they are. -/
theorem withCells (h : w.Tended note a pending c) {cells : Array Cell}
    (horderly : ({ w with cells } : World κ σ).Orderly note pending [])
    (hsame : ∀ cell, cell < w.cells.size → ({ w with cells } : World κ σ).cell cell = w.cell cell) :
    ({ w with cells } : World κ σ).Tended note a pending c := by
  have hown : ∀ key cell, a.charter.store.cell? key = some cell →
      ({ w with cells } : World κ σ).cell cell = w.cell cell :=
    fun key cell hcell => hsame cell (h.audited.cell_lt h.orderly hcell)
  have hlookup : ({ w with cells } : World κ σ).lookup a.charter.store =
      w.lookup a.charter.store := by
    funext key
    refine lookup_congr ?_
    unfold World.value?
    cases hkey : a.charter.store.cell? key with
    | none => rfl
    | some cell => rw [Option.map_some, Option.map_some, hown key cell hkey]
  refine h.edit horderly rfl rfl ?_
  rw [hlookup]
  exact h.audited.withCells hown

theorem addCell (h : w.Tended note a pending c) (value : Value) :
    (w.addCell value).Tended note a pending c :=
  h.withCells (h.orderly.addCell value) fun cell hlt => by
    show (w.addCell value).cell cell = _
    rw [cell_addCell, if_neg (Nat.ne_of_lt hlt)]

theorem makeStore (h : w.Tended note a pending c) (data : List (String × Value)) :
    (w.makeStore data).2.Tended note a pending c := by
  have horderly := (w.founded_makeStore data).orderly note pending [] h.orderly
  have hsame : ∀ cell, cell < w.cells.size → (w.makeStore data).2.cell cell = w.cell cell :=
    fun cell => cell_makeStore w data
  obtain ⟨cells, hmade⟩ := w.exists_makeStore data
  rw [hmade] at horderly hsame ⊢
  exact h.withCells horderly hsame

/-- A value is stored for a component that is dead. -/
theorem storeDead (h : w.Tended note a pending c) (hdead : w.isAlive a.id ≠ true) (cell : CellId)
    (value : Value) : (w.storeValue cell value).Tended note a pending c :=
  h.edit (h.orderly.storeValue cell value) rfl rfl
    { h.audited with
      leads := fun halive => absurd halive hdead
      tally := fun halive => absurd halive hdead
      fresh := fun _ halive => absurd halive hdead }

/-! ## Subscribers -/

theorem subscribe (h : w.Tended note a pending c) {cell : CellId} (hlt : cell < w.cells.size)
    (run : κ) : (w.subscribe cell (.handler run)).Tended note a pending c := by
  have hlookup : (w.subscribe cell (.handler run)).lookup a.charter.store =
      w.lookup a.charter.store :=
    funext fun key => lookup_congr (congrFun (w.value?_subscribe a.charter.store cell _) key)
  refine h.edit (h.orderly.subscribe hlt (fun _ _ he => by cases he) fun _ _ _ => Iff.rfl) rfl rfl ?_
  rw [hlookup]
  exact h.audited.subscribe hlt run

/-- User code lets go of a subscriber of its own. -/
theorem unsubscribe (h : w.Tended note a pending c) {s : SubscriberId} {run : κ}
    (hs : w.reaction? s = some (.handler run)) : (w.releaseSubscriber s).Tended note a pending c := by
  refine h.edit (h.orderly.releaseSubscriber fun id key hkey => ?_) rfl rfl
    (h.audited.withSubscribers (w.reaction?_releaseSubscriber s) h.audited.rested)
  rw [hs] at hkey
  cases hkey

/-- **A round begins** in which no watcher of the component waits for a turn. -/
theorem holdRound (h : w.Tended note a pending c) {round : List SubscriberId}
    (hround : ∀ s ∈ round, (w.reaction? s).isSome = true)
    (hothers : w.isAlive a.id = true → ∀ s ∈ round, ∀ key, w.reaction? s ≠ some (.patch a.id key)) :
    (round.foldl holdSubscriber w).Tended note a (awaiting pending round) c := by
  have horderly := h.orderly.holdRound hround
  have hreaction := fun s => reaction?_foldl_holdSubscriber round w s
  obtain ⟨subscribers, hfold, _⟩ := exists_foldl_holdSubscriber round w
  rw [hfold] at horderly hreaction ⊢
  refine h.edit horderly rfl rfl (h.audited.withSubscribers hreaction fun halive s key hs => ?_)
  have hcount : round.count s = 0 :=
    List.count_eq_zero_of_not_mem fun hmem => hothers halive s hmem key hs
  show pending s + round.count s = 0
  rw [hcount, h.audited.rested halive s key hs]

/-- **A turn is over.** -/
theorem releaseTurn {s : SubscriberId} {round : List SubscriberId}
    (h : w.Tended note a (awaiting pending (s :: round)) c) :
    (w.releaseSubscriber s).Tended note a (awaiting pending round) c := by
  refine h.edit h.orderly.releaseTurn rfl rfl (h.audited.withSubscribers
    (w.reaction?_releaseSubscriber s) fun halive t key ht => ?_)
  have hnone : pending t + (s :: round).count t = 0 := h.audited.rested halive t key ht
  show pending t + round.count t = 0
  rw [List.count_cons] at hnone
  omega

theorem releaseRound {round : List SubscriberId} (h : w.Tended note a (awaiting pending round) c) :
    (round.foldl releaseSubscriber w).Tended note a pending c := by
  induction round generalizing w with
  | nil => exact h
  | cons s round ih => exact ih h.releaseTurn

/-! ## Components -/

theorem holdComponent (h : w.Tended note a pending c) {id : ComponentId}
    (halive : w.isAlive id = true) : (w.holdComponent id).Tended note a pending c :=
  h.edit (h.orderly.holdComponent halive) rfl rfl (h.audited.holdComponent halive)

theorem releaseComponent (h : w.Tended note a pending c) (id : ComponentId) :
    (w.releaseComponent id).Tended note a pending c := by
  have horderly := h.orderly.releaseComponent id
  have haudited := h.audited.releaseComponent id
  obtain ⟨_, _, hrelease⟩ := w.exists_releaseComponent id
  rw [hrelease] at horderly haudited ⊢
  exact h.edit horderly rfl rfl haudited

/-! ## Scans -/

theorem scannedOther (h : w.Tended note a pending c) {id : ComponentId} (hid : a.id ≠ id)
    (key : String) : (w.scanned id key).Tended note a pending c := by
  unfold World.scanned
  cases ht : (w.component id).template with
  | none => exact h
  | some t =>
    have hrefreshed : (w.refreshed id t key).Tended note a pending c :=
      h.edit (h.orderly.refreshed id t key) rfl rfl
        (h.audited.refreshedOther h.orderly hid ht key)
    exact ((hrefreshed.tell _).tell _).tell _

end Tended

/-- **The component scans for a key**, under which the world may be stale. What is aimed at nodes that are
bound to the key settles. -/
theorem Audited.scanned {w : World κ σ} {note : σ → Prop} {a : Audit κ σ}
    {pending : SubscriberId → Nat} {c c' : Course} {lookup : Lookup} {key : String}
    (haudited : w.Audited (a.owing 1) pending (w.Loose a c) lookup)
    (hw : w.Orderly note pending [])
    (hagree : ∀ k, k ≠ key → w.lookup a.charter.store k = lookup k)
    (haimed : ∀ event node, c.aimed event node → ∃ e, w.events[event]? = some e ∧ e.target = node)
    (hsettles : c.Settles c' (a.Reaches key))
    (hwithin : ∀ event, c'.settled event → event < w.events.size ∨ a.astray w.host event) :
    (w.scanned a.id key).Tended note a pending c' := by
  have haimed' : ∀ event node, c'.aimed event node →
      ∃ e, w.events[event]? = some e ∧ e.target = node :=
    fun event node h => haimed event node (hsettles.aimed event node h)
  have htemplate : (w.component a.id).template = a.charter.template := haudited.template
  unfold World.scanned
  rw [htemplate]
  cases ht : a.charter.template with
  | none =>
    have hnone : ∀ t, a.charter.template ≠ some t := fun t he => by
      rw [ht] at he
      cases he
    exact ⟨hw, { haudited with
      tally := fun _ hsome => absurd ht hsome
      listens := fun _ t he => absurd he (hnone t)
      fresh := fun _ _ t he => absurd he (hnone t) }, hwithin, haimed'⟩
  | some t =>
    have hrefreshed : (w.refreshed a.id t key).Tended note a pending c' := by
      refine ⟨hw.refreshed a.id t key, haudited.refreshed hw ht hagree ?_, hwithin, haimed'⟩
      rintro node ⟨event, e, he, htype, htarget, hway⟩
      by_cases hsettled : c'.settled event ∧ ¬ c.settled event
      · obtain ⟨n, hn, hreached⟩ := (hsettles.settled event hsettled.1).resolve_left hsettled.2
        obtain ⟨e', he', htarget'⟩ := haimed event n hn
        obtain rfl := Option.some.inj (he.symm.trans he')
        exact .inr (htarget ▸ htarget' ▸ hreached t ht)
      · refine .inl ⟨event, e, he, htype, htarget, hway.imp_right fun hopen => ⟨fun hs => ?_, hopen.2⟩⟩
        exact hsettled ⟨hs, hopen.1⟩
    exact ((hrefreshed.tell _).tell _).tell _

namespace Tended

variable {w : World κ σ} {note : σ → Prop} {a : Audit κ σ} {pending : SubscriberId → Nat}
  {c c' : Course} {key : String}

/-- **An accepted write**, with the scan that follows it before anything else. -/
theorem accept (h : w.Tended note a pending c) {cell : CellId}
    (hcell : a.charter.store.cell? key = some cell) (value : Value)
    (hsettles : c.Settles c' (a.Reaches key)) :
    ((w.storeValue cell value).scanned a.id key).Tended note a pending c' := by
  refine (h.audited.storeValue h.orderly hcell value).scanned (h.orderly.storeValue cell value)
    (fun k hk => lookup_congr ?_) h.aimed hsettles (h.within hsettles)
  rw [value?_storeValue a.separate hcell (h.audited.cell_lt h.orderly hcell), overwritten_of_ne hk]

/-- **A scan that user code asks for**, once it is noted. -/
theorem request (h : w.Tended note (a.owing 1) pending c) (key : String) :
    (w.scanned a.id key).Tended note a pending c :=
  World.Audited.scanned h.audited h.orderly (fun _ _ => rfl) h.aimed (.refl c _) h.there

end Tended

/-! ## Edits by a person -/

/-- **A world in which a live value has been assigned** to a node that is bound to a key, and nobody has
heard of it. -/
structure Assigned (w : World κ σ) (note : σ → Prop) (a : Audit κ σ) (pending : SubscriberId → Nat)
    (c : Course) (document : DocumentId) (key : String) (node : NodeId) : Prop where
  orderly : w.Orderly note pending []
  audited : w.Audited a pending (fun n => w.Loose a c n ∨ n = node) (w.lookup a.charter.store)
  there : ∀ event, c.settled event → event < w.events.size ∨ a.astray w.host event
  aimed : ∀ event n, c.aimed event n → ∃ e, w.events[event]? = some e ∧ e.target = n
  node_lt : node < (w.document document).size
  binds : a.Binds key node
  carries : Action.model a.id key ∈ ((w.document document).listenersFor node "input").map (·.action)

namespace Tended

variable {w : World κ σ} {note : σ → Prop} {a : Audit κ σ} {pending : SubscriberId → Nat}
  {c : Course} {key : String} {document : DocumentId} {node : NodeId} {value : String}
  {d : Document (Action κ)}

/-- **A live value is assigned** to a node of another document, or to one that is bound to no key. -/
theorem assignFree (h : w.Tended note a pending c) (hgrows : Grows (w.document document) d)
    (hrevises : (w.document document).Revises node
      (Dom.Content.mapElement fun e => { e with value := some value }) d)
    (hfree : a.plain → document = a.charter.document → ∀ key, ¬ a.Binds key node) :
    (w.setDocument document d).Tended note a pending c := by
  refine h.edit (h.orderly.setDocument hgrows) rfl rfl
    (h.audited.setDocument h.orderly (fun _ he => he) fun hplain hdocument t ht =>
      ⟨fun hlistens => hlistens.of_sameListeners hrevises.listeners, fun _ hfresh => ?_⟩)
  have hhoused : t.Housed (w.document document) := hdocument ▸ h.audited.housed h.orderly ht
  refine hfresh.assign hhoused hrevises (fun _ he => he) fun key hkey b hb hkind hnode => ?_
  exact absurd ⟨hkey, t, ht, b, hb, hkind, hnode⟩ (hfree hplain hdocument key)

/-- **A live value is assigned** to a node that is bound to a key. -/
theorem assignBound (h : w.Tended note a pending c) (hgrows : Grows (w.document document) d)
    (hrevises : (w.document document).Revises node
      (Dom.Content.mapElement fun e => { e with value := some value }) d)
    (hplain : a.plain) (hdocument : document = a.charter.document) (hbinds : a.Binds key node) :
    (w.setDocument document d).Assigned note a pending c document key node := by
  have hlt : document < w.documents.size := hdocument ▸ h.audited.document_lt h.orderly
  have hset : (w.setDocument document d).document document = d := document_setDocument hlt d
  have haudited : (w.setDocument document d).Audited a pending (fun n => w.Loose a c n ∨ n = node)
      (w.lookup a.charter.store) := by
    refine h.audited.setDocument h.orderly (fun _ he => .inl he) fun _ _ t ht =>
      ⟨fun hlistens => hlistens.of_sameListeners hrevises.listeners, fun _ hfresh => ?_⟩
    have hhoused : t.Housed (w.document document) := hdocument ▸ h.audited.housed h.orderly ht
    exact hfresh.assign hhoused hrevises (fun _ he => .inl he) fun _ _ _ _ _ _ => .inr rfl
  obtain ⟨t, ht, b, hb, hkind, hnode⟩ := hbinds.affected
  have hseat := (h.audited.housed h.orderly ht).seats hb
  have hcarries : Action.model a.id key ∈
      ((w.document document).listenersFor node "input").map (·.action) := by
    rw [hdocument, ← hnode]
    exact h.audited.listens hplain t ht key b hb hkind
  refine ⟨h.orderly.setDocument hgrows, haudited, h.there, h.aimed, ?_, hbinds, ?_⟩
  · rw [hset]
    exact Nat.lt_of_lt_of_le (hdocument ▸ hnode ▸ hseat.lt) hgrows.size
  · rw [hset, hrevises.listeners.listenersFor]
    exact hcarries

end Tended

/-- **The event of an edit sets out** from the node where the live value was assigned. -/
theorem Assigned.begin {w : World κ σ} {note : σ → Prop} {a : Audit κ σ}
    {pending : SubscriberId → Nat} {c : Course} {document : DocumentId} {key : String} {node : NodeId}
    (h : w.Assigned note a pending c document key node) (traces : List Trace) :
    ((((w.addEvent (.fresh "input" node true)).tell traces).modifyEvent w.events.size
      fun e => { e with current := some node }).Tended note a pending (c.aim w.events.size node)) := by
  generalize hv : ((w.addEvent (.fresh "input" node true)).tell traces).modifyEvent w.events.size
    (fun e => { e with current := some node }) = v
  have hnew : v.events[w.events.size]? = some { Event.fresh "input" node true with current := some node } := by
    subst hv
    rw [getElem?_events_modifyEvent, if_pos rfl]
    show ((w.events.push _)[w.events.size]?).map _ = _
    rw [Array.getElem?_push_size]
    rfl
  have hold : ∀ {event : EventId} {e : Event}, w.events[event]? = some e → v.events[event]? = some e := by
    intro event e he
    have hlt := (Array.getElem?_eq_some_iff.mp he).1
    subst hv
    rw [getElem?_events_modifyEvent, if_neg (Nat.ne_of_gt hlt)]
    show (w.events.push _)[event]? = _
    rw [Array.getElem?_push_lt hlt, ← Array.getElem?_eq_getElem hlt, he]
  have horderly : v.Orderly note pending [] := by
    subst hv
    exact ((h.orderly.addEvent _).tell _).modifyEvent _ _
  have haudited : v.Audited a pending (fun n => w.Loose a c n ∨ n = node) (v.lookup a.charter.store) := by
    subst hv
    exact ((h.audited.withEvents _).withTraces _).withEvents _
  have hhost : v.host = w.host := hv ▸ rfl
  refine ⟨horderly, haudited.mono ?_, fun event hsettled => ?_, ?_⟩
  · rintro n (⟨event, e, he, htype, htarget, hway⟩ | rfl)
    · exact ⟨event, e, hold he, htype, htarget, hhost ▸ hway⟩
    · refine ⟨w.events.size, _, hnew, rfl, rfl, ?_⟩
      by_cases hsettled : c.settled w.events.size
      · exact .inl (hhost ▸ (h.there _ hsettled).resolve_left (Nat.lt_irrefl _))
      · exact .inr ⟨hsettled, rfl⟩
  · rw [hhost]
    refine (h.there event hsettled).imp_left fun hlt => ?_
    exact (Array.getElem?_eq_some_iff.mp (hold (Array.getElem?_eq_getElem hlt))).1
  · rintro event n (haimed | ⟨rfl, rfl⟩)
    · obtain ⟨e, he, htarget⟩ := h.aimed event n haimed
      exact ⟨e, hold he, htarget⟩
    · exact ⟨_, hnew, rfl⟩

end World

end BoundView
