import BoundView.Proofs.World.Accounts
import BoundView.Proofs.World.Triple

/-!
# Writes are delivered exactly

Whatever a program asks of cells, a ledger reads its journal to the end when it counts those as live who
are held. A subscriber that loses its guard while it has a turn in a running round is held until this
turn is over; till then it is counted, and writes that are nested in the round are delivered to it. Only
if no guard is dropped so early does a ledger that counts guards alone read the journal too.

At each point of a run the journal is read and the ledger agrees with the world. A request keeps it so:
its mark is allowed, and the world is edited as the ledger says. A write begins a round, in which each
callback enters, asks for requests of its own and leaves, and then the round is over.

Main statement: `writes_delivered`.
-/

namespace BoundView.Delivery

variable {κ σ : Type}

/-! ## Points of a run -/

/-- **A journal that is read to its end** by a ledger that counts those as live who are held. -/
def Legible (w : World (Callback κ) (Journal σ)) : Prop :=
  ∃ l, Ledger.read Ledger.held .empty w.host.marks = some l

/-- **A point of a run**: the journal is read, the ledger agrees with the world, and these rounds are
running. -/
def Reached (rounds : List Round) (past : List SubscriberId)
    (w : World (Callback κ) (Journal σ)) : Prop :=
  ∃ l, l.rounds = rounds ∧ Ledger.read Ledger.held .empty w.host.marks = some l ∧ Agrees l past w

/-- **Running a callback for a write** takes its turn, at every point of a run. -/
def Keeps (handle : Handle (Callback κ) (Journal σ)) : Prop :=
  ∀ callback value waiting rounds,
    Run.Triple (Reached (⟨callback.cell, value, none, callback.subscriber :: waiting⟩ :: rounds) [])
      (handle callback (.write value))
      (fun _ => Reached (⟨callback.cell, value, none, waiting⟩ :: rounds) [callback.subscriber]) Legible

open Run (Triple)

variable {rounds : List Round} {past : List SubscriberId} {w : World (Callback κ) (Journal σ)}
  {handle : Handle (Callback κ) (Journal σ)}

theorem Reached.legible (h : Reached rounds past w) : Legible w := by
  obtain ⟨l, _, hread, _⟩ := h
  exact ⟨l, hread⟩

/-- **A mark is made** when the world agrees with what the ledger says after it. -/
theorem reached_mark {l l' : Ledger} {m : Mark}
    (hread : Ledger.read Ledger.held .empty w.host.marks = some l) (hstep : l.step l.held m = some l')
    (hrounds : l'.rounds = rounds) (h : Agrees l' past w) :
    Reached rounds past (w.modifyHost fun j => { j with marks := j.marks ++ [m] }) := by
  refine ⟨l', hrounds, ?_, h.modifyHost fun _ => rfl⟩
  show Ledger.read Ledger.held .empty (w.host.marks ++ [m]) = some l'
  rw [Ledger.read_concat, hread]
  exact hstep

/-! ## Rounds -/

section

variable {cell : CellId} {value : Value} {s : SubscriberId} {waiting : List SubscriberId}

/-- **A turn begins**: nobody is held more or less for it. -/
theorem reached_entered (h : Reached (⟨cell, value, none, s :: waiting⟩ :: rounds) [] w) :
    Reached (⟨cell, value, some s, waiting⟩ :: rounds) []
      (w.modifyHost fun j => { j with marks := j.marks ++ [.entered s value (sight w cell)] }) := by
  obtain ⟨l, hrounds, hread, hagrees⟩ := h
  have hcell := (hagrees.round _ (hrounds ▸ List.mem_cons_self)).1
  refine reached_mark hread (Ledger.step_entered hrounds (hagrees.sight?_eq hcell)) rfl ?_
  exact hagrees.turned hrounds rfl (fun _ hs => List.mem_cons_of_mem _ hs) fun _ => rfl

/-- **A turn ends**: it is over, but the round still holds the subscriber. -/
theorem reached_left (h : Reached (⟨cell, value, some s, waiting⟩ :: rounds) [] w) :
    Reached (⟨cell, value, none, waiting⟩ :: rounds) [s]
      (w.modifyHost fun j => { j with marks := j.marks ++ [.left s] }) := by
  obtain ⟨l, hrounds, hread, hagrees⟩ := h
  refine reached_mark hread (Ledger.step_left hrounds) rfl ?_
  refine hagrees.turned hrounds rfl (fun _ hs => hs) fun t => ?_
  show List.count t waiting + _ = List.count t (s :: waiting) + _
  rw [List.count_cons, List.count_cons, List.count_nil]
  omega

/-- **A round releases** those whose turns are over. -/
theorem reached_released (h : Reached rounds [s] w) : Reached rounds [] (w.releaseSubscriber s) := by
  obtain ⟨l, hrounds, hread, hagrees⟩ := h
  refine ⟨l, hrounds, hread, hagrees.released s (f := id) (fun t => ?_) hagrees.guards⟩
  rw [List.count_singleton]
  by_cases hst : s = t
  · rw [if_pos hst, if_pos (beq_iff_eq.mpr hst)]
    rfl
  · rw [if_neg hst, if_neg fun he => hst (beq_iff_eq.mp he)]
    rfl

/-- **A write returns.** -/
theorem reached_returned (h : Reached (⟨cell, value, none, []⟩ :: rounds) [] w) :
    Reached rounds [] (w.modifyHost fun j => { j with marks := j.marks ++ [.returned cell] }) := by
  obtain ⟨l, hrounds, hread, hagrees⟩ := h
  exact reached_mark hread (Ledger.step_returned hrounds) rfl (hagrees.finished hrounds rfl)

end

/-- **A subscriber's turn**: the callback that it runs takes it. -/
theorem react_reached (hkeeps : Keeps handle) {cell : CellId} {value : Value} {s : SubscriberId}
    {waiting : List SubscriberId} :
    Triple (Reached (⟨cell, value, none, s :: waiting⟩ :: rounds) []) (Run.react handle s value)
      (fun _ => Reached (⟨cell, value, none, waiting⟩ :: rounds) [s]) Legible := by
  unfold Run.react
  refine Triple.get_bind fun w hw => ?_
  obtain ⟨l, hrounds, _, hagrees⟩ := id hw
  obtain ⟨run, hrun⟩ := (hagrees.round _ (hrounds ▸ List.mem_cons_self)).2 s List.mem_cons_self
  rw [show (w.subscribers[s]?).map Subscriber.reaction = _ from hrun]
  exact Triple.at_world (hkeeps ⟨run, s, cell⟩ value waiting rounds) hw

/-- **A round** gives everybody a turn who was live when it began. -/
theorem notify_reached (hkeeps : Keeps handle) (cell : CellId) (value : Value)
    (ss : List SubscriberId) :
    Triple (Reached (⟨cell, value, none, ss⟩ :: rounds) []) (Run.notify (Run.react handle · value) ss)
      (fun _ => Reached (⟨cell, value, none, []⟩ :: rounds) []) Legible := by
  induction ss with
  | nil => exact Triple.pure fun _ h => h
  | cons s ss ih =>
    unfold Run.notify
    refine Triple.bind (Triple.tryCatch (react_reached hkeeps) fun f => ?_) fun _ => ?_
    · refine Triple.bind (Q := fun _ => Legible) (Triple.modify fun w hw => ?_) fun _ =>
        Triple.throw fun _ h => h
      unfold Legible
      rw [World.host_foldl_releaseSubscriber]
      exact hw
    · exact Triple.bind (Triple.modify fun _ h => reached_released h) fun _ => ih

section

variable (hkeeps : Keeps handle) (hopen : rounds.head?.all (·.running.isSome) = true)

include hopen

theorem isOpen_of_rounds {l : Ledger} (hrounds : l.rounds = rounds) : l.isOpen = true := by
  unfold Ledger.isOpen
  rw [hrounds]
  exact hopen

/-- **A write begins**: it makes its mark, stores its value, and holds those who are live for a round. -/
theorem reached_called (h : Reached rounds [] w) {cell : CellId} (hcell : cell < w.cells.size)
    {value : Value} {w' : World (Callback κ) (Journal σ)}
    (hw' : w' = (w.modifyHost fun j => { j with marks := j.marks ++ [.called cell value] }).storeValue
      cell value) :
    Reached (⟨cell, value, none, (w'.cell cell).subscribers⟩ :: rounds) []
      ((w'.cell cell).subscribers.foldl World.holdSubscriber w') := by
  obtain ⟨l, hrounds, hread, hagrees⟩ := h
  have hmarked : Agrees l [] (w.modifyHost fun j => { j with marks := j.marks ++ [.called cell value] }) :=
    hagrees.modifyHost fun _ => rfl
  obtain ⟨l', hcall, hrounds', hagrees'⟩ := hmarked.called hcell value rfl
  have hstep : l.step l.held (.called cell value) = some l' :=
    (if_pos (isOpen_of_rounds hopen hrounds)).trans hcall
  subst hw'
  refine ⟨l', hrounds'.trans (congrArg _ hrounds), ?_, hagrees'⟩
  generalize World.cell _ cell = c
  obtain ⟨_, hfold, _⟩ := World.exists_foldl_holdSubscriber c.subscribers
    ((w.modifyHost fun j => { j with marks := j.marks ++ [.called cell value] }).storeValue cell value)
  rw [hfold]
  show Ledger.read _ _ (w.host.marks ++ [.called cell value]) = _
  rw [Ledger.read_concat, hread]
  exact hstep

include hkeeps

/-- **A write** gives everybody a turn who is live when it is called, and returns. -/
theorem write_reached {cell : CellId} (value : Value) :
    Triple (fun w => Reached rounds [] w ∧ cell < w.cells.size) (write handle cell value)
      (fun _ => Reached rounds []) Legible := by
  rintro w ⟨hw, hcell⟩
  have hround : Triple (· = w.modifyHost fun j => { j with marks := j.marks ++ [.called cell value] })
      (Run.set handle cell value) (fun _ => Reached (⟨cell, value, none, []⟩ :: rounds) [])
      Legible := by
    unfold Run.set Run.writeCell
    refine Triple.bind (Q := fun _ w' => w' = World.storeValue _ cell value)
      (Triple.modify fun w' he => congrArg (World.storeValue · cell value) he) fun _ => ?_
    refine Triple.get_bind fun w' hw' => ?_
    refine Triple.bind (Triple.modify ?_) fun _ => notify_reached hkeeps cell value _
    rintro w'' rfl
    exact reached_called hopen hw hcell hw'
  have hmark : Triple (· = w) (mark (.called cell value) : Run (Callback κ) (Journal σ) Unit)
      (fun _ => (· = w.modifyHost fun j => { j with marks := j.marks ++ [.called cell value] }))
      Legible := Triple.modify fun w' he => by rw [he]
  refine Triple.bind hmark (fun _ => Triple.bind hround fun _ => ?_) w rfl
  exact Triple.modify fun _ h => reached_returned h

omit hkeeps in
theorem make_reached (value : Value) :
    Triple (Reached rounds []) (make value : Run (Callback κ) (Journal σ) CellId)
      (fun _ => Reached rounds []) Legible := by
  refine Triple.get_bind fun w ⟨l, hrounds, hread, hagrees⟩ => ?_
  refine Triple.bind (Q := fun _ w' => w' = w.addCell value) (Triple.modify fun w' he => by rw [he])
    fun _ => ?_
  refine Triple.bind (Q := fun _ => Reached rounds []) (Triple.modify ?_) fun _ =>
    Triple.pure fun _ h => h
  rintro w' rfl
  have hmade : l.step l.held (.made w.cells.size value) =
      some { l with entries := l.entries ++ [⟨value, 0, []⟩] } :=
    if_pos ⟨isOpen_of_rounds hopen hrounds, hagrees.cells⟩
  exact reached_mark hread hmade hrounds (hagrees.made value)

omit hkeeps in
theorem subscribe_reached {cell : CellId} (run : κ) :
    Triple (fun w => Reached rounds [] w ∧ cell < w.cells.size)
      (subscribe cell run : Run (Callback κ) (Journal σ) SubscriberId) (fun _ => Reached rounds [])
      Legible := by
  refine Triple.get_bind fun w ⟨⟨l, hrounds, hread, hagrees⟩, hcell⟩ => ?_
  refine Triple.bind (Q := fun s w' => s = w.subscribers.size ∧
    w' = w.subscribe cell (.handler ⟨run, w.subscribers.size, cell⟩)) ?_ fun s => ?_
  · refine Triple.get_bind fun w' he => ?_
    subst he
    refine Triple.bind (Q := fun _ w'' => w'' = w'.subscribe cell (.handler ⟨run, w'.subscribers.size, cell⟩))
      (Triple.modify fun w'' he => by rw [he]) fun _ => Triple.pure fun _ he => ⟨rfl, he⟩
  refine Triple.assuming (φ := s = w.subscribers.size) (fun _ h => h.1) ?_
  rintro rfl
  have hsubscribed : l.step l.held (.subscribed cell w.subscribers.size) =
      some { l.modifyEntry cell fun e => { e with registered := e.registered ++ [w.subscribers.size] } with
        subscribers := w.subscribers.size + 1
        guards := l.guards ++ [w.subscribers.size] } :=
    if_pos ⟨isOpen_of_rounds hopen hrounds, hagrees.cells ▸ hcell, hagrees.subscribers⟩
  refine Triple.bind (Q := fun _ w' => w' =
      (w.subscribe cell (.handler ⟨run, w.subscribers.size, cell⟩)).modifyHost
        fun j => { j with guards := j.guards ++ [w.subscribers.size] })
    (Triple.modify fun w' h => by rw [h.2]) fun _ => ?_
  refine Triple.bind (Q := fun _ => Reached rounds []) (Triple.modify ?_) fun _ =>
    Triple.pure fun _ h => h
  rintro w' rfl
  exact reached_mark hread hsubscribed hrounds (hagrees.subscribed hcell run)

omit hkeeps in
theorem drop_reached {s : SubscriberId} :
    Triple (fun w => Reached rounds [] w ∧ s ∈ w.host.guards)
      (drop s : Run (Callback κ) (Journal σ) Unit) (fun _ => Reached rounds []) Legible := by
  rintro w ⟨⟨l, hrounds, hread, hagrees⟩, hs⟩
  rw [hagrees.guards] at hs
  have hdropped : l.step l.held (.dropped s) = some { l with guards := l.guards.erase s } :=
    if_pos ⟨isOpen_of_rounds hopen hrounds, hs⟩
  have hagrees' : Agrees { l with guards := l.guards.erase s } []
      ((w.releaseSubscriber s).modifyHost fun j => { j with guards := j.guards.erase s }) := by
    refine hagrees.released s (fun t => ?_) (congrArg (List.erase · s) hagrees.guards)
    have hpos : s = t → 0 < l.guards.count t := fun he => he ▸ List.count_pos_iff.mpr hs
    rw [List.count_erase]
    by_cases hst : s = t
    · rw [if_pos hst, if_pos (beq_iff_eq.mpr hst)]
      have := hpos hst
      omega
    · rw [if_neg hst, if_neg fun he => hst (beq_iff_eq.mp he)]
      rfl
  exact reached_mark (w := (w.releaseSubscriber s).modifyHost _) hread hdropped hrounds hagrees'

/-- **A request** is allowed by the ledger. -/
theorem perform_reached (request : Request κ) :
    Triple (Reached rounds []) (request.perform handle) (fun _ => Reached rounds []) Legible := by
  cases request with
  | make value => exact make_reached hopen value
  | set cell value =>
    refine Triple.get_bind fun w hw => ?_
    by_cases hcell : cell < w.cells.size
    · rw [if_pos hcell]
      exact Triple.bind (Triple.at_world (write_reached hkeeps hopen value) ⟨hw, hcell⟩) fun _ =>
        Triple.pure fun _ h => h
    · rw [if_neg hcell]
      exact Triple.at_world (Triple.pure fun _ h => h) hw
  | subscribe cell run =>
    refine Triple.get_bind fun w hw => ?_
    by_cases hcell : cell < w.cells.size
    · rw [if_pos hcell]
      exact Triple.at_world (subscribe_reached hopen run) ⟨hw, hcell⟩
    · rw [if_neg hcell]
      exact Triple.at_world (Triple.pure fun _ h => h) hw
  | drop s =>
    refine Triple.get_bind fun w hw => ?_
    by_cases hs : s ∈ w.host.guards
    · rw [if_pos hs]
      exact Triple.bind (Triple.at_world (drop_reached hopen) ⟨hw, hs⟩) fun _ =>
        Triple.pure fun _ h => h
    · rw [if_neg hs]
      exact Triple.at_world (Triple.pure fun _ h => h) hw

/-- **A behavior** makes no mark that the ledger refuses. -/
theorem behavior_reached (behavior : Behavior κ σ) :
    Triple (Reached rounds []) (behavior.run handle) (fun _ => Reached rounds []) Legible := by
  induction behavior with
  | done => exact Triple.pure fun _ h => h
  | consult next ih =>
    refine Triple.get_bind fun w hw => ?_
    exact Triple.at_world (ih w.host.own) hw
  | note change next ih =>
    refine Triple.bind (Q := fun _ => Reached rounds []) (Triple.modify fun w hw => ?_) fun _ => ih
    obtain ⟨l, hrounds, hread, hagrees⟩ := hw
    exact ⟨l, hrounds, hread, hagrees.modifyHost fun _ => rfl⟩
  | look cell next ih =>
    refine Triple.get_bind fun w hw => ?_
    by_cases hcell : cell < w.cells.size
    · rw [if_pos hcell]
      refine Triple.bind (Q := fun _ => Reached rounds []) (Triple.modify ?_) fun _ =>
        ih (some (sight w cell))
      rintro w' rfl
      obtain ⟨l, hrounds, hread, hagrees⟩ := hw
      have hlooked : l.step l.held (.looked cell (sight w' cell)) = some l :=
        if_pos ⟨isOpen_of_rounds hopen hrounds, hagrees.sight?_eq hcell⟩
      exact reached_mark hread hlooked hrounds hagrees
    · rw [if_neg hcell]
      exact Triple.at_world (ih none) hw
  | ask request next ih =>
    exact Triple.bind (perform_reached hkeeps hopen request) fun answer => ih answer

end

/-- **Callbacks take their turns**, whatever they ask for, at every depth. -/
theorem handle_keeps (program : Program κ σ) (depth : Nat) : Keeps (program.handle depth) := by
  induction depth with
  | zero => exact fun _ _ _ _ => Triple.throw fun _ h => h.legible
  | succ depth ih =>
    intro callback value waiting rounds
    refine Triple.get_bind fun w hw => ?_
    refine Triple.bind (Q := fun _ => Reached
      (⟨callback.cell, value, some callback.subscriber, waiting⟩ :: rounds) []) (Triple.modify ?_)
      fun _ => ?_
    · rintro w' rfl
      exact reached_entered hw
    · exact Triple.bind (behavior_reached ih rfl (program callback.run value)) fun _ =>
        Triple.modify fun _ h => reached_left h

/-- A run begins with the ledger of nothing. -/
theorem reached_ofHost (own : σ) :
    Reached [] [] (World.ofHost ⟨own, [], []⟩ : World (Callback κ) (Journal σ)) := by
  refine ⟨.empty, rfl, rfl, rfl, rfl, rfl, fun _ => rfl, ?_, ?_, ?_⟩
  · intro cell e he
    cases he
  · intro cell e he
    cases he
  · intro r hr
    cases hr

/-- **Writes are delivered exactly to those who are held.** Whatever a program asks of cells, and however
deep its callbacks are nested: a ledger that counts those as live who are held reads the journal to its
end, and if the run returns, all rounds are over by then. If nobody loses the guard before the turn is
over, a ledger that counts guards alone reads the journal, too. -/
theorem writes_delivered (program : Program κ σ) (depth : Nat) (main : Behavior κ σ) (own : σ) :
    Ledger.accepts Ledger.held (program.marks depth main own) = true ∧
      (Ledger.empty.patient (program.marks depth main own) = true →
        Ledger.accepts Ledger.guarded (program.marks depth main own) = true) ∧
      ∀ w, program.start depth main own = .ok () w →
        (Ledger.read Ledger.held .empty (program.marks depth main own)).map Ledger.rounds = some [] := by
  have hopen : ([] : List Round).head?.all (·.running.isSome) = true := rfl
  have hrun := behavior_reached (handle_keeps program depth) hopen main _ (reached_ofHost own)
  have hread : (∃ l, Ledger.read Ledger.held .empty (program.marks depth main own) = some l) ∧
      ∀ w, program.start depth main own = .ok () w →
        (Ledger.read Ledger.held .empty (program.marks depth main own)).map Ledger.rounds =
          some [] := by
    unfold Program.marks Program.start
    cases hstart : main.run (program.handle depth)
        (World.ofHost ⟨own, [], []⟩ : World (Callback κ) (Journal σ)) with
    | ok _ w =>
      rw [hstart] at hrun
      obtain ⟨l, hrounds, hread, _⟩ := hrun
      refine ⟨⟨l, hread⟩, fun _ _ => ?_⟩
      dsimp only
      rw [hread, Option.map_some, hrounds]
    | error f w =>
      rw [hstart] at hrun
      exact ⟨hrun, fun _ h => by cases h⟩
  obtain ⟨⟨l, hl⟩, hover⟩ := hread
  refine ⟨?_, fun hpatient => ?_, hover⟩
  · unfold Ledger.accepts
    rw [hl]
    rfl
  · unfold Ledger.accepts
    rw [Ledger.read_guarded_of_patient Ledger.covered_empty hpatient, hl]
    rfl

/-- Two callbacks hear a cell; then it is written once. -/
def twoHear : Behavior Bool Unit :=
  .ask (.make (.int 0)) fun _ =>
    .ask (.subscribe 0 true) fun _ => .ask (.subscribe 0 false) fun _ =>
      .ask (.set 0 (.int 1)) fun _ => .done

/-- The first of them writes the cell again. -/
def relay : Program Bool Unit := fun first value =>
  if first = true ∧ value = .int 1 then .ask (.set 0 (.int 2)) fun _ => .done else .done

/-- The first of them drops the guard of the second, looks at the cell and writes it again. -/
def hasty : Program Bool Unit := fun first value =>
  if first = true ∧ value = .int 1 then
    .ask (.drop 1) fun _ => .look 0 fun _ => .ask (.set 0 (.int 2)) fun _ => .done
  else .done

theorem writes_delivered_relay :
    Ledger.accepts Ledger.guarded (relay.marks 3 twoHear ()) = true ∧
      (relay.marks 3 twoHear ()).filter (fun m => m matches .entered ..) =
        [.entered 0 (.int 1) ⟨.int 1, 1, 2⟩, .entered 0 (.int 2) ⟨.int 2, 2, 2⟩,
          .entered 1 (.int 2) ⟨.int 2, 2, 2⟩, .entered 1 (.int 1) ⟨.int 2, 2, 2⟩] :=
  ⟨(writes_delivered relay 3 twoHear ()).2.1 (by decide +kernel), by decide +kernel⟩

/-- **A guard that is dropped too early** does not keep its callback from a nested write, nor from being
counted: the ledger that counts guards alone refuses this journal. -/
theorem hasty_delivered :
    hasty.marks 3 twoHear () =
        [.made 0 (.int 0), .subscribed 0 0, .subscribed 0 1, .called 0 (.int 1),
          .entered 0 (.int 1) ⟨.int 1, 1, 2⟩, .dropped 1, .looked 0 ⟨.int 1, 1, 2⟩,
          .called 0 (.int 2),
          .entered 0 (.int 2) ⟨.int 2, 2, 2⟩, .left 0, .entered 1 (.int 2) ⟨.int 2, 2, 2⟩, .left 1,
          .returned 0, .left 0, .entered 1 (.int 1) ⟨.int 2, 2, 2⟩, .left 1, .returned 0] ∧
      Ledger.accepts Ledger.guarded (hasty.marks 3 twoHear ()) = false := by
  decide +kernel

end BoundView.Delivery
