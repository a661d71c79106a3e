import BoundView.Proofs.World.Adding
import BoundView.Proofs.World.Calls
import BoundView.Proofs.World.Triple

/-!
# A store is a map with fixed keys

A store is made from a list of entries, with a cell for each key, and is used by a program whose
callbacks may call it again while a write is being delivered. Its keys stay those of the entries in the
order in which they came first, and at each moment a key has the value that was written to it last, the
writes that are still being delivered included.

At each point of a run the store agrees with the record of its calls, and each subscriber is held once by
its guard and once for each turn that it is still to have. So a write forgets nobody who was not dropped,
and nobody has a turn but in a write to the key that it hears. One call keeps this: a write by the rounds
that it runs, in which every callback is given its turn and may make calls of its own.

Main statement: `store_faithful`.
-/

namespace BoundView

variable {κ σ : Type}

/-! ## Keys -/

/-- **The keys of a store** are those of its entries, in the order in which they came first. -/
theorem keys_makeStore (w : World κ σ) (data : List (String × Value)) :
    (w.makeStore data).1.keys = (data.map Prod.fst).eraseDups := by
  induction data using List.reverseRecOn with
  | nil => rfl
  | append_singleton data entry ih =>
    obtain ⟨key, value⟩ := entry
    have hmem : key ∈ data.map Prod.fst ↔ (w.makeStore data).1.cell? key ≠ none := by
      rw [← Store.mem_keys_iff, ih, List.mem_eraseDups]
    rw [World.makeStore_concat, List.map_append, List.eraseDups_append, ← ih]
    unfold World.declare
    cases hcell : (w.makeStore data).1.cell? key with
    | some cell =>
      have hold : [key].removeAll (data.map Prod.fst) = [] := by
        simpa [List.removeAll] using hmem.mpr (by simp [hcell])
      rw [List.map_singleton, hold, List.eraseDups_nil, List.append_nil]
    | none =>
      have hnew : [key].removeAll (data.map Prod.fst) = [key] := by
        simpa [List.removeAll] using fun h => hmem.mp h hcell
      rw [List.map_singleton, hnew]
      exact List.map_append

/-- A key that comes again keeps its place and takes the later value. -/
example :
    let made := (World.ofHost () : World Unit Unit).makeStore [("a", .int 1), ("b", .int 2), ("a", .int 3)]
    made.1.keys = ["a", "b"] ∧ made.2.value? made.1 "a" = some (.int 3) := by
  decide +kernel

namespace Keyed

open Run (Triple)

/-! ## Points of a run -/

section

variable (data : List (String × Value)) (store : Store)

/-- **A point of a run**: the store is what the record says, and was so in all worlds that were found;
these writes have not returned, and these subscribers, each with the key that it hears, are still to have
their turns. -/
structure Kept (running : List (String × Value)) (waiting : List (String × SubscriberId))
    (w : World (Callback κ) (Diary (Callback κ) (Record σ))) : Prop where
  running : w.host.own.running = running
  faithful : Faithful data store w.seen
  found : ∀ v ∈ w.host.entered ++ w.host.returned, Faithful data store v
  cells : ∀ key cell, store.cell? key = some cell → cell < w.cells.size
  hears : ∀ e ∈ w.host.own.subscribed, ∃ run, w.reaction? e.2 = some (.handler ⟨run, e.1⟩)
  holders : ∀ e ∈ w.host.own.subscribed, w.subscriberHolders e.2 =
    (if e.2 ∈ w.host.own.dropped then 0 else 1) + (waiting.map Prod.snd).count e.2
  waiting : ∀ e ∈ waiting, e ∈ w.host.own.subscribed
  dropped : ∀ s ∈ w.host.own.dropped, ∃ key, (key, s) ∈ w.host.own.subscribed

/-- **Running a callback** for a write to the key that it hears. -/
def Heeds (handle : Handle (Callback κ) (Diary (Callback κ) (Record σ))) : Prop :=
  ∀ run key value running waiting,
    Triple (Kept data store ((key, value) :: running) waiting) (handle ⟨run, key⟩ (.write value))
      (fun _ => Kept data store ((key, value) :: running) waiting)
      (Kept data store ((key, value) :: running) waiting)

end

variable {data : List (String × Value)} {store : Store} {running : List (String × Value)}
  {waiting : List (String × SubscriberId)}
  {w : World (Callback κ) (Diary (Callback κ) (Record σ))}

/-- The world in which a write of a key is called. -/
def called (w : World (Callback κ) (Diary (Callback κ) (Record σ))) (key : String) (value : Value) :
    World (Callback κ) (Diary (Callback κ) (Record σ)) :=
  w.modifyHost fun diary => { diary with own := { diary.own with
    writes := diary.own.writes ++ [(key, value)], running := (key, value) :: diary.own.running } }

/-- What a store says of its keys follows from what it says of their values. -/
theorem faithful_of_value {v : World (Callback κ) (Record σ)}
    (value : v.value? store = v.host.value? data)
    (hearing : ∀ key cell, store.cell? key = some cell →
      (v.cell cell).subscribers.filter (· ∉ v.host.dropped) = v.host.hearing key)
    (listed : ∀ key cell, store.cell? key = some cell →
      ∀ s ∈ (v.cell cell).subscribers, (key, s) ∈ v.host.subscribed)
    (turns : ∀ turn ∈ v.host.turns, turn.within = some (turn.key, turn.value)) :
    Faithful data store v := by
  have hlookup : ∀ key, v.lookup store key = (v.host.value? data key).map Value.text :=
    fun key => congrArg (Option.map Value.text) (congrFun value key)
  refine ⟨congrFun value, hlookup, fun key => ?_, hearing, listed, turns⟩
  rw [hlookup, Option.isSome_map]
  exact isSome_recorded v.host data key

namespace Kept

/-- The state of the program is its own. -/
theorem note (h : Kept data store running waiting w) (change : σ → σ) :
    Kept data store running waiting (w.modifyHost fun diary =>
      { diary with own := { diary.own with own := change diary.own.own } }) :=
  { h with
    faithful := ⟨h.faithful.value, h.faithful.lookup, h.faithful.known, h.faithful.hearing,
      h.faithful.listed, h.faithful.turns⟩ }

theorem noteEntry (h : Kept data store running waiting w) :
    Kept data store running waiting w.noteEntry := by
  refine { h with found := fun v hv => ?_ }
  rcases List.mem_append.mp hv with hentered | hreturned
  · rcases List.mem_append.mp hentered with hold | hnew
    · exact h.found v (List.mem_append_left _ hold)
    · exact List.mem_singleton.mp hnew ▸ h.faithful
  · exact h.found v (List.mem_append_right _ hreturned)

theorem noteReturn (h : Kept data store running waiting w) :
    Kept data store running waiting w.noteReturn := by
  refine { h with found := fun v hv => ?_ }
  rcases List.mem_append.mp hv with hentered | hreturned
  · exact h.found v (List.mem_append_left _ hentered)
  · rcases List.mem_append.mp hreturned with hold | hnew
    · exact h.found v (List.mem_append_right _ hold)
    · exact List.mem_singleton.mp hnew ▸ h.faithful

/-- **A callback enters** in a write to the key that it hears, with the value of this write. -/
theorem entered {key : String} {value : Value}
    (h : Kept data store ((key, value) :: running) waiting w) :
    Kept data store ((key, value) :: running) waiting (w.modifyHost fun diary =>
      { diary with own := { diary.own with
        turns := diary.own.turns ++ [⟨key, value, diary.own.running.head?⟩] } }) := by
  have hturns : ∀ turn ∈ w.host.own.turns ++ [⟨key, value, w.host.own.running.head?⟩],
      turn.within = some (turn.key, turn.value) := by
    intro turn hturn
    rcases List.mem_append.mp hturn with hold | hnew
    · exact h.faithful.turns turn hold
    · rw [List.mem_singleton.mp hnew]
      dsimp only
      rw [h.running]
      rfl
  exact { h with
    faithful := faithful_of_value (funext h.faithful.value) h.faithful.hearing h.faithful.listed hturns }

/-! ## Subscriptions -/

/-- **A new subscriber** hears its key, and nobody else hears anything new. -/
theorem subscribed (hstore : store.Separate) (h : Kept data store running waiting w) {key : String}
    {cell : CellId} (hcell : store.cell? key = some cell) (run : κ) :
    Kept data store running waiting
      ((w.subscribe cell (.handler ⟨run, key⟩)).modifyHost fun diary =>
        { diary with own := { diary.own with
          subscribed := diary.own.subscribed ++ [(key, w.subscribers.size)] } }) := by
  have hfresh : ∀ e ∈ w.host.own.subscribed, e.2 ≠ w.subscribers.size := by
    intro e he
    obtain ⟨_, hreaction⟩ := h.hears e he
    exact Nat.ne_of_lt (World.lt_of_reaction? hreaction)
  have hlt := h.cells key cell hcell
  refine ⟨h.running, ?faithful, h.found, ?cells, ?hears, ?holders,
    fun e he => List.mem_append_left _ (h.waiting e he), fun s hs => ?dropped⟩
  case faithful =>
    refine faithful_of_value ?_ (fun k other hk => ?_) (fun k other hk s hs => ?_) h.faithful.turns
    · exact (w.value?_subscribe store cell _).trans (funext h.faithful.value)
    · have hold : (w.cell other).subscribers.filter (· ∉ w.host.own.dropped) =
          w.host.own.hearing k := h.faithful.hearing k other hk
      show ((w.subscribe cell _).cell other).subscribers.filter (· ∉ w.host.own.dropped) =
        Record.hearing { w.host.own with
          subscribed := w.host.own.subscribed ++ [(key, w.subscribers.size)] } k
      rw [Record.hearing_subscribe, World.cell_subscribe hlt, ← hold]
      by_cases hother : other = cell
      · have hkey : key = k := hstore (hother ▸ hk) hcell
        rw [if_pos hother, if_pos hkey, ← List.filter_append, hother]
      · have hkey : key ≠ k := fun he => hother (Option.some.inj (hk.symm.trans (he ▸ hcell)))
        rw [if_neg hother, if_neg hkey, List.filter_nil, List.append_nil]
    · rcases (World.mem_subscribers_subscribe hlt).mp hs with hold | ⟨rfl, rfl⟩
      · exact List.mem_append_left _ (h.faithful.listed k other hk s hold)
      · rw [hstore hk hcell]
        exact List.mem_append_right _ (List.mem_singleton_self _)
  case cells =>
    intro k other hk
    show other < (w.subscribe cell _).cells.size
    unfold World.subscribe
    rw [World.size_cells_modifyCell]
    exact h.cells k other hk
  case hears =>
    intro e he
    rcases List.mem_append.mp he with hold | hnew
    · obtain ⟨run', hrun'⟩ := h.hears e hold
      exact ⟨run', World.reaction?_subscribe_of_eq_some hrun' cell _⟩
    · obtain rfl := List.mem_singleton.mp hnew
      exact ⟨run, (w.reaction?_subscribe cell _ _).trans (if_pos rfl)⟩
  case holders =>
    intro e he
    refine (w.subscriberHolders_subscribe cell _ e.2).trans ?_
    rcases List.mem_append.mp he with hold | hnew
    · rw [if_neg (hfresh e hold)]
      exact h.holders e hold
    · obtain rfl := List.mem_singleton.mp hnew
      have hundropped : w.subscribers.size ∉ w.host.own.dropped := fun hmem => by
        obtain ⟨_, hk⟩ := h.dropped _ hmem
        exact hfresh _ hk rfl
      have hidle : w.subscribers.size ∉ waiting.map Prod.snd := fun hmem => by
        obtain ⟨e, he, hs⟩ := List.mem_map.mp hmem
        exact hfresh e (h.waiting e he) hs
      show (if w.subscribers.size = w.subscribers.size then 1 else _) =
        (if w.subscribers.size ∈ w.host.own.dropped then 0 else 1) + _
      rw [if_pos rfl, if_neg hundropped, List.count_eq_zero_of_not_mem hidle]
  case dropped =>
    obtain ⟨k, hk⟩ := h.dropped s hs
    exact ⟨k, List.mem_append_left _ hk⟩

/-- Lists that agree in what passes one test agree in what passes a stricter one. -/
theorem filter_congr_of_imp {α : Type} {xs ys : List α} {p q : α → Bool}
    (h : xs.filter p = ys.filter p) (himp : ∀ a, q a = true → p a = true) :
    xs.filter q = ys.filter q := by
  have hstrict : ∀ l : List α, l.filter q = (l.filter p).filter q := by
    intro l
    rw [List.filter_filter]
    refine List.filter_congr fun a _ => ?_
    cases hq : q a with
    | true => rw [himp a hq]; rfl
    | false => rfl
  rw [hstrict xs, hstrict ys, h]

/-- Who holds a subscriber counts for those alone who hear the store, and reactions and values stay. -/
theorem withSubscribers (h : Kept data store running waiting w)
    {subscribers : Array (Subscriber (Callback κ))} {waiting' : List (String × SubscriberId)}
    (hreaction : ∀ s, ({ w with subscribers } : World _ _).reaction? s = w.reaction? s)
    (hholders : ∀ e ∈ w.host.own.subscribed, ({ w with subscribers } : World _ _).subscriberHolders e.2 =
      (if e.2 ∈ w.host.own.dropped then 0 else 1) + (waiting'.map Prod.snd).count e.2)
    (hwaiting : ∀ e ∈ waiting', e ∈ w.host.own.subscribed) :
    Kept data store running waiting' { w with subscribers } where
  running := h.running
  faithful := ⟨h.faithful.value, h.faithful.lookup, h.faithful.known, h.faithful.hearing,
    h.faithful.listed, h.faithful.turns⟩
  found := h.found
  cells := h.cells
  hears e he := by
    obtain ⟨run, hrun⟩ := h.hears e he
    exact ⟨run, (hreaction e.2).trans hrun⟩
  holders := hholders
  waiting := hwaiting
  dropped := h.dropped

/-- **A turn is over**, and the subscriber is let go. -/
theorem turnOver {e : String × SubscriberId} (h : Kept data store running (e :: waiting) w) :
    Kept data store running waiting (w.releaseSubscriber e.2) := by
  refine h.withSubscribers (w.reaction?_releaseSubscriber e.2) (fun e' he' => ?_)
    fun e' he' => h.waiting e' (List.mem_cons_of_mem _ he')
  refine (w.subscriberHolders_releaseSubscriber e.2 e'.2).trans ?_
  rw [h.holders e' he', List.map_cons, List.count_cons, beq_eq_decide]
  by_cases hsame : e.2 = e'.2
  · rw [if_pos hsame, decide_eq_true hsame, if_pos rfl]
    rfl
  · rw [if_neg hsame, decide_eq_false hsame, if_neg Bool.false_ne_true]
    rfl

/-- All that are left of a round that fails are let go. -/
theorem broken (key : String) (round : List SubscriberId)
    (h : Kept data store running (round.map (key, ·) ++ waiting) w) :
    Kept data store running waiting (round.foldl World.releaseSubscriber w) := by
  induction round generalizing w with
  | nil => exact h
  | cons s round ih => exact ih h.turnOver

/-- **A guard is dropped**: one less holds the subscriber, and it is among those who hear no more. -/
theorem guardDropped (h : Kept data store running waiting w) {s : SubscriberId}
    (hs : s ∈ w.host.own.subscribed.map Prod.snd) (hdropped : s ∉ w.host.own.dropped) :
    Kept data store running waiting ((w.releaseSubscriber s).modifyHost fun diary =>
      { diary with own := { diary.own with dropped := diary.own.dropped ++ [s] } }) := by
  refine { h with
    faithful := faithful_of_value (funext h.faithful.value) (fun key cell hcell => ?_)
      h.faithful.listed h.faithful.turns
    hears := fun e he => ?_
    holders := fun e he => ?_
    dropped := fun t ht => ?_ }
  · refine filter_congr_of_imp (h.faithful.hearing key cell hcell) fun t ht => ?_
    have hundropped : t ∉ w.host.own.dropped ++ [s] := of_decide_eq_true ht
    exact decide_eq_true fun hmem => hundropped (List.mem_append_left _ hmem)
  · obtain ⟨run, hrun⟩ := h.hears e he
    exact ⟨run, (w.reaction?_releaseSubscriber s e.2).trans hrun⟩
  · refine (w.subscriberHolders_releaseSubscriber s e.2).trans ?_
    rw [h.holders e he]
    show _ = (if e.2 ∈ w.host.own.dropped ++ [s] then 0 else 1) + _
    by_cases hsame : s = e.2
    · subst hsame
      rw [if_pos rfl, if_neg hdropped, if_pos (List.mem_append_right _ (List.mem_singleton_self _)),
        Nat.zero_add, Nat.add_comm, Nat.add_sub_cancel]
    · have hiff : e.2 ∈ w.host.own.dropped ++ [s] ↔ e.2 ∈ w.host.own.dropped := by
        simp [Ne.symm hsame]
      rw [if_neg hsame, Nat.sub_zero, if_congr hiff rfl rfl]
  · rcases List.mem_append.mp ht with hold | hnew
    · exact h.dropped t hold
    · obtain ⟨e, he, hes⟩ := List.mem_map.mp hs
      rw [List.mem_singleton.mp hnew, ← hes]
      exact ⟨e.1, he⟩

/-! ## Writes -/

/-- **A write to a key that is not declared** changes no value. -/
theorem called_undeclared (h : Kept data store running waiting w) {key : String}
    (hcell : store.cell? key = none) (value : Value) :
    Kept data store ((key, value) :: running) waiting (called w key value) := by
  have hvalue : w.value? store = w.host.own.value? data := funext h.faithful.value
  have hnone : w.host.own.value? data key = none := by
    rw [← hvalue]
    exact World.value?_eq_none_iff.mpr hcell
  refine { h with
    running := congrArg ((key, value) :: ·) h.running
    faithful := faithful_of_value ?_ h.faithful.hearing h.faithful.listed h.faithful.turns }
  refine hvalue.trans (Eq.symm ?_)
  exact (w.host.own.value?_write data key value _).trans (overwritten_of_none hnone value)

/-- Whoever was subscribed and not dropped is held. -/
theorem isLive (h : Kept data store running waiting w) {e : String × SubscriberId}
    (he : e ∈ w.host.own.subscribed) (hundropped : e.2 ∉ w.host.own.dropped) :
    w.isLive e.2 = true := by
  have hholders := h.holders e he
  rw [if_neg hundropped] at hholders
  exact decide_eq_true (Nat.lt_of_lt_of_eq (Nat.succ_pos _) (Nat.add_comm _ _ ▸ hholders.symm))

/-- Storing a value puts nobody onto a list. -/
theorem listed_stored (h : Kept data store running waiting w) {key : String} {cell : CellId}
    (hcell : store.cell? key = some cell) (value : Value) {k : String} {other : CellId}
    (hk : store.cell? k = some other) :
    ∀ s ∈ (((called w key value).storeValue cell value).cell other).subscribers,
      (k, s) ∈ w.host.own.subscribed := by
  have hlt : cell < (called w key value).cells.size := h.cells key cell hcell
  intro s hs
  rw [World.cell_storeValue hlt] at hs
  split at hs
  · rename_i hother
    exact h.faithful.listed k other hk s (hother ▸ (List.mem_filter.mp hs).1)
  · exact h.faithful.listed k other hk s hs

/-- Storing a value forgets only those who were dropped. -/
theorem hearing_stored (h : Kept data store running waiting w) {key : String} {cell : CellId}
    (hcell : store.cell? key = some cell) (value : Value) {k : String} {other : CellId}
    (hk : store.cell? k = some other) :
    (((called w key value).storeValue cell value).cell other).subscribers.filter
      (· ∉ w.host.own.dropped) = w.host.own.hearing k := by
  have hlt : cell < (called w key value).cells.size := h.cells key cell hcell
  rw [World.cell_storeValue hlt]
  have hold := h.faithful.hearing k other hk
  split
  · rename_i hother
    subst hother
    refine Eq.trans ?_ hold
    rw [List.filter_filter]
    refine List.filter_congr fun s hs => ?_
    by_cases hdropped : s ∈ w.host.own.dropped
    · exact (Bool.and_eq_false_imp.mpr fun hc =>
        absurd hdropped (of_decide_eq_true hc)).trans (decide_eq_false (not_not.mpr hdropped)).symm
    · have hlive : (called w key value).isLive s = true :=
        h.isLive (h.faithful.listed k other hk s hs) hdropped
      rw [hlive, Bool.and_true]
      rfl
  · exact hold

/-- **The value of a write is stored**, before anybody has a turn. -/
theorem stored (hstore : store.Separate) (h : Kept data store running waiting w) {key : String}
    {cell : CellId} (hcell : store.cell? key = some cell) (value : Value) :
    Kept data store ((key, value) :: running) waiting
      ((called w key value).storeValue cell value) := by
  have hlt : cell < (called w key value).cells.size := h.cells key cell hcell
  refine ⟨congrArg ((key, value) :: ·) h.running, faithful_of_value ?_
    (fun k other hk => h.hearing_stored hcell value hk)
    (fun k other hk => h.listed_stored hcell value hk) h.faithful.turns, h.found,
    fun k other hk => ?_, h.hears, h.holders, h.waiting, h.dropped⟩
  · refine (World.value?_storeValue hstore hcell hlt value).trans (Eq.symm ?_)
    exact (w.host.own.value?_write data key value _).trans
      (congrArg (overwritten · key value) (funext h.faithful.value).symm)
  · rw [World.size_cells_storeValue]
    exact h.cells k other hk

/-- **A write to a declared key** stores its value, forgets only those who were dropped, and holds for
their turns all who hear the key. -/
theorem called_declared (hstore : store.Separate) (h : Kept data store running waiting w) {key : String}
    {cell : CellId} (hcell : store.cell? key = some cell) (value : Value) {round : List SubscriberId}
    (hround : (((called w key value).storeValue cell value).cell cell).subscribers = round) :
    Kept data store ((key, value) :: running) (round.map (key, ·) ++ waiting)
      (round.foldl World.holdSubscriber ((called w key value).storeValue cell value)) := by
  have hstored := h.stored hstore hcell value
  have hheard : ∀ s ∈ round, (key, s) ∈ w.host.own.subscribed := fun s hs =>
    h.listed_stored hcell value hcell s (hround ▸ hs)
  have hthere : ∀ s ∈ round, (((called w key value).storeValue cell value).reaction? s).isSome = true := by
    intro s hs
    obtain ⟨run, hrun⟩ := h.hears _ (hheard s hs)
    exact Option.isSome_iff_exists.mpr ⟨_, hrun⟩
  have hholders := World.subscriberHolders_foldl_holdSubscriber hthere
  have hreaction := World.reaction?_foldl_holdSubscriber round
    ((called w key value).storeValue cell value)
  obtain ⟨subscribers, hfold, -⟩ := World.exists_foldl_holdSubscriber round
    ((called w key value).storeValue cell value)
  rw [hfold] at hholders hreaction ⊢
  refine hstored.withSubscribers hreaction (fun e he => ?_) fun e he => ?_
  · have hname : (round.map (key, ·)).map Prod.snd = round := by
      rw [List.map_map]
      exact List.map_id round
    rw [hholders, hstored.holders e he, List.map_append, hname, List.count_append, Nat.add_assoc,
      Nat.add_comm (List.count _ round)]
  · rcases List.mem_append.mp he with hnew | hold
    · obtain ⟨s, hs, rfl⟩ := List.mem_map.mp hnew
      exact hheard s hs
    · exact h.waiting e hold

/-- **A write returns.** -/
theorem returned {e : String × Value} (h : Kept data store (e :: running) waiting w) :
    Kept data store running waiting (w.modifyHost fun diary =>
      { diary with own := { diary.own with running := diary.own.running.tail } }) :=
  { h with
    running := (congrArg List.tail h.running :)
    faithful := ⟨h.faithful.value, h.faithful.lookup, h.faithful.known, h.faithful.hearing,
      h.faithful.listed, h.faithful.turns⟩ }

end Kept

/-! ## Calls -/

section

variable (hstore : store.Separate) {handle : Handle (Callback κ) (Diary (Callback κ) (Record σ))}
  (hheeds : Heeds data store handle)

section

include hheeds

/-- **A subscriber's turn**: it runs the callback that hears the key. -/
theorem react_kept (key : String) (value : Value) (s : SubscriberId) :
    Triple (Kept data store ((key, value) :: running) ((key, s) :: waiting))
      (Run.react handle s value)
      (fun _ => Kept data store ((key, value) :: running) ((key, s) :: waiting))
      (Kept data store ((key, value) :: running) ((key, s) :: waiting)) := by
  refine Triple.get_bind fun w hw => ?_
  obtain ⟨run, hrun⟩ := hw.hears (key, s) (hw.waiting _ List.mem_cons_self)
  rw [show (w.subscribers[s]?).map Subscriber.reaction = some (.handler ⟨run, key⟩) from hrun]
  exact (hheeds run key value running _).at_world hw

/-- **A round** gives everybody a turn, and nobody waits for one any more. -/
theorem notify_kept (key : String) (value : Value) (round : List SubscriberId) :
    Triple (Kept data store ((key, value) :: running) (round.map (key, ·) ++ waiting))
      (Run.notify (Run.react handle · value) round)
      (fun _ => Kept data store ((key, value) :: running) waiting)
      (Kept data store ((key, value) :: running) waiting) := by
  induction round with
  | nil => exact Triple.pure fun _ h => h
  | cons s round ih =>
    unfold Run.notify
    refine Triple.bind (Triple.tryCatch (react_kept hheeds key value s) fun f => ?_) fun _ => ?_
    · exact Triple.bind (Q := fun _ => Kept data store ((key, value) :: running) waiting)
        (Triple.modify fun _ h => Kept.broken key (s :: round) h)
        fun _ => Triple.throw fun _ h => h
    · exact Triple.bind (Triple.modify fun _ h => h.turnOver) fun _ => ih

end

include hstore

section

include hheeds

/-- **A write** with all that follows it, called and returned. -/
theorem set_kept (key : String) (value : Value) :
    Triple (Kept data store running waiting) (set store handle key value)
      (fun _ => Kept data store running waiting) (Kept data store running waiting) := by
  have hset : Triple (fun w' => ∃ w, Kept data store running waiting w ∧ w' = called w key value)
      (Run.setKey handle store key value)
      (fun _ => Kept data store ((key, value) :: running) waiting)
      (Kept data store ((key, value) :: running) waiting) := by
    unfold Run.setKey
    cases hcell : store.cell? key with
    | none =>
      refine Triple.pure ?_
      rintro _ ⟨w, hw, rfl⟩
      exact hw.called_undeclared hcell value
    | some cell =>
      refine Triple.bind (Q := fun _ => Kept data store ((key, value) :: running) waiting) ?_
        fun _ => Triple.pure fun _ h => h
      refine Triple.bind (Q := fun _ w' => ∃ w, Kept data store running waiting w ∧
        w' = (called w key value).storeValue cell value) (Triple.modify ?_) fun _ => ?_
      · rintro _ ⟨w, hw, rfl⟩
        exact ⟨w, hw, rfl⟩
      refine Triple.get_bind fun w' hw' => ?_
      refine Triple.bind (Triple.modify ?_) fun _ => notify_kept hheeds key value _
      rintro _ rfl
      obtain ⟨w, hw, rfl⟩ := hw'
      exact hw.called_declared hstore hcell value rfl
  refine Triple.bind (Q := fun _ w' => ∃ w, Kept data store running waiting w ∧
    w' = called w key value) (Triple.modify fun w hw => ⟨w, hw, rfl⟩) fun _ => ?_
  refine Triple.bind (Q := fun _ => Kept data store ((key, value) :: running) waiting)
    (Triple.tryCatch (Triple.bind hset fun result => ?_) fun f => Triple.pure fun _ h => h)
    fun answer => ?_
  · cases result with
    | ok _ => exact Triple.pure fun _ h => h
    | error e => exact Triple.pure fun _ h => h
  · exact Triple.bind (Q := fun _ => Kept data store running waiting)
      (Triple.modify fun _ h => h.returned) fun _ => Triple.pure fun _ h => h

end

theorem subscribe_kept (key : String) (run : κ) :
    Triple (Kept data store running waiting) (subscribe store key run : Activity κ σ Answer)
      (fun _ => Kept data store running waiting) (Kept data store running waiting) := by
  unfold subscribe Run.subscribeKey
  cases hcell : store.cell? key with
  | none => exact Triple.pure fun _ h => h
  | some cell =>
    intro w hw
    exact hw.subscribed hstore hcell run

omit hstore in
theorem drop_kept (s : SubscriberId) :
    Triple (Kept data store running waiting) (drop s : Activity κ σ Answer)
      (fun _ => Kept data store running waiting) (Kept data store running waiting) := by
  refine Triple.get_bind fun w hw => ?_
  dsimp only
  split
  · rename_i hs
    intro _ he
    subst he
    exact hw.guardDropped hs.1 hs.2
  · exact (Triple.pure fun _ h => h).at_world hw

include hheeds

/-- **A request** keeps the store what the record says. -/
theorem perform_kept (request : Request κ) :
    Triple (Kept data store running waiting) (request.perform store handle)
      (fun _ => Kept data store running waiting) (Kept data store running waiting) := by
  cases request with
  | set key value => exact set_kept hstore hheeds key value
  | subscribe key run => exact subscribe_kept hstore key run
  | drop s => exact drop_kept s

/-- **A behavior** does, with all its requests. -/
theorem behavior_kept (behavior : Behavior κ σ) :
    Triple (Kept data store running waiting) (behavior.run store handle)
      (fun _ => Kept data store running waiting) (Kept data store running waiting) := by
  induction behavior with
  | done => exact Triple.pure fun _ h => h
  | fail f => exact Triple.throw fun _ h => h
  | look next ih => exact Triple.get_bind fun w hw => (ih w.seen).at_world hw
  | note change next ih =>
    exact Triple.bind (Q := fun _ => Kept data store running waiting)
      (Triple.modify fun _ h => h.note change) fun _ => ih
  | ask request next ih =>
    refine Triple.bind (perform_kept hstore hheeds request) fun answer => ?_
    exact Triple.bind (Q := fun _ => Kept data store running waiting)
      (Triple.modify fun _ h => h.noteReturn) fun _ => ih answer

omit hheeds in
/-- **Callbacks** do, at every depth. -/
theorem handle_heeds (program : Program κ σ) (depth : Nat) :
    Heeds data store (program.handle store depth) := by
  induction depth with
  | zero => exact fun _ _ _ _ _ => Triple.throw fun _ h => h
  | succ depth ih =>
    intro run key value running waiting
    refine Triple.bind (Q := fun _ => Kept data store ((key, value) :: running) waiting)
      (Triple.modify fun _ h => h.entered) fun _ => ?_
    exact Triple.bind (Q := fun _ => Kept data store ((key, value) :: running) waiting)
      (Triple.modify fun _ h => h.noteEntry) fun _ => behavior_kept hstore ih (program run value)

end

/-- **A run begins** with a new store that nobody hears. -/
theorem kept_begun (w : World (Callback κ) (Diary (Callback κ) (Record σ)))
    (data : List (String × Value)) (own : σ) :
    Kept data (w.makeStore data).1 [] [] (begun (w.makeStore data).2 own) := by
  have hdeclared := makeStore_spec w data
  refine ⟨rfl, faithful_of_value (funext fun key => ?value) (fun key cell hcell => ?hearing)
    (fun key cell hcell s hs => ?listed) fun _ h => (nomatch h), fun _ h => (nomatch h),
    fun key cell hcell => (hdeclared.unheard key cell hcell).1, fun _ h => (nomatch h),
    fun _ h => (nomatch h), fun _ h => (nomatch h), fun _ h => nomatch h⟩
  case value =>
    refine (hdeclared.value key).trans ?_
    unfold Record.value?
    split
    · exact congrArg (fun entries => List.lookup key entries.reverse) (List.append_nil data).symm
    · rename_i hkey
      rw [List.lookup_eq_none_iff]
      intro entry hentry
      exact bne_iff_ne.mpr fun he =>
        hkey (List.mem_map.mpr ⟨entry, List.mem_reverse.mp hentry, he.symm⟩)
  case hearing =>
    show ((w.makeStore data).2.cell cell).subscribers.filter _ = []
    rw [(hdeclared.unheard key cell hcell).2]
    rfl
  case listed =>
    have hnone : s ∈ ((w.makeStore data).2.cell cell).subscribers := hs
    rw [(hdeclared.unheard key cell hcell).2] at hnone
    cases hnone

/-- **Throughout a run** the store is what the record of the calls says. -/
theorem faithful_throughout (program : Program κ σ) (depth : Nat) (main : Behavior κ σ)
    (w : World (Callback κ) (Diary (Callback κ) (Record σ))) (data : List (String × Value)) (own : σ) :
    ∀ v ∈ program.worlds depth main (w.makeStore data).1 (w.makeStore data).2 own,
      Faithful data (w.makeStore data).1 v := by
  have hstore := (makeStore_spec w data).separate
  have hbegun := kept_begun w data own
  have hlast : Kept data (w.makeStore data).1 [] [] (Run.left
      (main.run (w.makeStore data).1 (program.handle (w.makeStore data).1 depth))
      (begun (w.makeStore data).2 own)) :=
    Run.Keeps.left (behavior_kept hstore (handle_heeds hstore program depth) main) hbegun
  intro v hv
  rcases List.mem_cons.mp hv with rfl | hv
  · exact hbegun.faithful
  rcases List.mem_cons.mp hv with rfl | hv
  · exact hlast.faithful
  · exact hlast.found v hv

section

variable {store : Store} {key : String}

/-- **Calls that name no declared key** are refused, and leave the world as it is. -/
theorem refused_of_undeclared (hkey : store.cell? key = none) (handle : Handle κ σ) (v : World κ σ) :
    (∀ value, Run.setKey handle store key value v = .ok (.error (.undeclaredKey key)) v) ∧
      ∀ reaction, Run.subscribeKey store key reaction v = .ok (.error (.undeclaredKey key)) v := by
  refine ⟨fun value => ?_, fun reaction => ?_⟩
  · unfold Run.setKey
    rw [hkey]
    rfl
  · unfold Run.subscribeKey
    rw [hkey]
    rfl

/-- **Calls that name a declared key** go to its cell. -/
theorem granted_of_declared {cell : CellId} (hkey : store.cell? key = some cell) (handle : Handle κ σ) :
    (∀ value, Run.setKey handle store key value = (do Run.set handle cell value; pure (.ok ()))) ∧
      ∀ reaction (v : World κ σ), Run.subscribeKey store key reaction v =
        .ok (.ok v.subscribers.size) (v.subscribe cell reaction) := by
  refine ⟨fun value => ?_, fun reaction v => ?_⟩
  · unfold Run.setKey
    rw [hkey]
  · unfold Run.subscribeKey
    rw [hkey]
    rfl

end

/-- **A store is an ordered map with fixed keys.** It is made from any entries, in any world, and used by
any program, nested in its callbacks to any depth. Its keys are those of the entries, in the order in
which they came first and each once. In the world in which the run begins, in all those in which a
callback is entered or to which a request returns, and in the one at the end, the store is what the
record of the calls says. A call that names a key which is not declared is refused with this key and
leaves the world as it is; one that names a declared key is not refused. -/
theorem store_faithful (program : Program κ σ) (depth : Nat) (main : Behavior κ σ)
    (w : World (Callback κ) (Diary (Callback κ) (Record σ))) (data : List (String × Value)) (own : σ) :
    (w.makeStore data).1.keys = (data.map Prod.fst).eraseDups ∧
      (w.makeStore data).1.keys.Nodup ∧
      (∀ v ∈ program.worlds depth main (w.makeStore data).1 (w.makeStore data).2 own,
        Faithful data (w.makeStore data).1 v) ∧
      ∀ key (handle : Handle (Callback κ) (Diary (Callback κ) (Record σ))),
        (key ∉ data.map Prod.fst → ∀ v,
          (∀ value, Run.setKey handle (w.makeStore data).1 key value v =
            .ok (.error (.undeclaredKey key)) v) ∧
          ∀ reaction, Run.subscribeKey (w.makeStore data).1 key reaction v =
            .ok (.error (.undeclaredKey key)) v) ∧
        (key ∈ data.map Prod.fst → ∃ cell, (w.makeStore data).1.cell? key = some cell ∧
          (∀ value, Run.setKey handle (w.makeStore data).1 key value =
            (do Run.set handle cell value; pure (.ok ()))) ∧
          ∀ reaction (v : World (Callback κ) (Diary (Callback κ) (Record σ))),
            Run.subscribeKey (w.makeStore data).1 key reaction v =
              .ok (.ok v.subscribers.size) (v.subscribe cell reaction)) := by
  have hkeys := keys_makeStore w data
  have hdeclared : ∀ key, key ∈ data.map Prod.fst ↔ (w.makeStore data).1.cell? key ≠ none := by
    intro key
    rw [← Store.mem_keys_iff, hkeys, List.mem_eraseDups]
  refine ⟨hkeys, (World.founded_makeStore w data).nodup, faithful_throughout program depth main w data own,
    fun key handle => ⟨fun hkey => ?_, fun hkey => ?_⟩⟩
  · have hnone : (w.makeStore data).1.cell? key = none :=
      by_contra fun hsome => hkey ((hdeclared key).mpr hsome)
    exact refused_of_undeclared hnone handle
  · obtain ⟨cell, hcell⟩ := Option.ne_none_iff_exists'.mp ((hdeclared key).mp hkey)
    exact ⟨cell, hcell, granted_of_declared hcell handle⟩

end Keyed

end BoundView
