import BoundView.Proofs.World.Journal
import BoundView.Proofs.World.Tables

/-!
# A ledger agrees with a world

Between two marks the tables of the world agree with the ledger. A subscriber is held once by its guard
and once for each turn that it has in a running round. A cell lists all those who are live, in the order
in which they subscribed; those whom it has forgotten are dead. And each subscriber runs a callback that
knows its number and its cell.

Each edit of the world that a request makes keeps the agreement with the ledger after the mark of the
request.

Main statements: `Agrees.isLive_eq`, `Agrees.sight?_eq`, `Agrees.subscribed`, `Agrees.called`.
-/

namespace BoundView.Delivery

variable {κ σ : Type}

/-! ## Cells and subscribers -/

/-- **The account of a cell agrees with the cell**: the cell lists all who are live, in order. -/
structure Entry.Agrees (e : Entry) (c : Cell) (live : SubscriberId → Bool) : Prop where
  value : c.value = e.value
  version : c.version = e.version
  listed : ∀ s ∈ c.subscribers, s ∈ e.registered
  live : c.subscribers.filter live = e.registered.filter live

namespace Entry.Agrees

variable {e : Entry} {c : Cell} {live live' : SubscriberId → Bool}

/-- Where fewer are live, accounts agree still. -/
theorem mono (h : e.Agrees c live) (himp : ∀ s, live' s = true → live s = true) :
    e.Agrees c live' := by
  have hfilter : ∀ ss : List SubscriberId, ss.filter live' = (ss.filter live).filter live' := by
    intro ss
    rw [List.filter_filter]
    refine List.filter_congr fun s _ => ?_
    cases hlive : live' s with
    | false => rfl
    | true => rw [himp s hlive]; rfl
  refine ⟨h.value, h.version, h.listed, ?_⟩
  rw [hfilter c.subscribers, hfilter e.registered, h.live]

/-- Who never subscribed to the cell is of no account. -/
theorem congr (h : e.Agrees c live) (hlive : ∀ s ∈ e.registered, live' s = live s) :
    e.Agrees c live' := by
  refine ⟨h.value, h.version, h.listed, ?_⟩
  rw [List.filter_congr fun s hs => hlive s (h.listed s hs), List.filter_congr hlive]
  exact h.live

/-- Somebody subscribes. -/
theorem subscribe (h : e.Agrees c live) (s : SubscriberId) :
    Entry.Agrees { e with registered := e.registered ++ [s] }
      { c with subscribers := c.subscribers ++ [s] } live := by
  refine ⟨h.value, h.version, fun t ht => ?_, ?_⟩
  · rcases List.mem_append.mp ht with ht | ht
    · exact List.mem_append_left _ (h.listed t ht)
    · exact List.mem_append_right _ ht
  · rw [List.filter_append, List.filter_append, h.live]

/-- A value is stored, and the dead are forgotten. -/
theorem store (h : e.Agrees c live) (value : Value) :
    Entry.Agrees { e with value, version := e.version + 1 }
      ⟨value, c.version + 1, c.subscribers.filter live⟩ live := by
  refine ⟨rfl, congrArg (· + 1) h.version, fun s hs => h.listed s (List.mem_filter.mp hs).1, ?_⟩
  rw [List.filter_filter, ← h.live]
  exact List.filter_congr fun s _ => Bool.and_self _

end Entry.Agrees

/-- **A subscriber hears a cell**: it runs a callback with its number and this cell. -/
def Hears (w : World (Callback κ) (Journal σ)) (cell : CellId) (s : SubscriberId) : Prop :=
  ∃ run, w.reaction? s = some (.handler ⟨run, s, cell⟩)

theorem Hears.congr {w w' : World (Callback κ) (Journal σ)} {cell : CellId} {s : SubscriberId}
    (h : Hears w cell s) (hreaction : w'.reaction? s = w.reaction? s) : Hears w' cell s := by
  obtain ⟨run, hrun⟩ := h
  exact ⟨run, hreaction.trans hrun⟩

/-- Subscriptions change nothing for those who are there. -/
theorem Hears.subscribe {w : World (Callback κ) (Journal σ)} {cell : CellId} {s : SubscriberId}
    (h : Hears w cell s) (other : CellId) (reaction : Reaction (Callback κ)) :
    Hears (w.subscribe other reaction) cell s := by
  obtain ⟨run, hrun⟩ := h
  exact ⟨run, World.reaction?_subscribe_of_eq_some hrun other reaction⟩

/-- The account of a cell after one account was changed. -/
theorem Ledger.getElem?_modifyEntry {l : Ledger} {cell other : CellId} {f : Entry → Entry} {e : Entry}
    (h : (l.modifyEntry cell f).entries[other]? = some e) :
    ∃ e₀, l.entries[other]? = some e₀ ∧ e = if cell = other then f e₀ else e₀ := by
  unfold modifyEntry at h
  rw [List.getElem?_modify] at h
  obtain ⟨e₀, he₀, rfl⟩ := Option.map_eq_some_iff.mp h
  refine ⟨e₀, he₀, ?_⟩
  split <;> rfl

theorem Ledger.length_modifyEntry (l : Ledger) (cell : CellId) (f : Entry → Entry) :
    (l.modifyEntry cell f).entries.length = l.entries.length := List.length_modify _ _ _

/-! ## The agreement -/

/-- **A ledger agrees with a world.** Besides, `past` may be held, whose turns are over. -/
structure Agrees (l : Ledger) (past : List SubscriberId) (w : World (Callback κ) (Journal σ)) :
    Prop where
  guards : w.host.guards = l.guards
  cells : w.cells.size = l.entries.length
  subscribers : w.subscribers.size = l.subscribers
  holders : ∀ s, w.subscriberHolders s = l.guards.count s + l.turns.count s + past.count s
  entry : ∀ cell (e : Entry), l.entries[cell]? = some e → e.Agrees (w.cell cell) w.isLive
  hears : ∀ cell (e : Entry), l.entries[cell]? = some e → ∀ s ∈ e.registered, Hears w cell s
  round : ∀ r ∈ l.rounds, r.cell < w.cells.size ∧ ∀ s ∈ r.waiting, Hears w r.cell s

namespace Agrees

variable {l : Ledger} {past : List SubscriberId} {w : World (Callback κ) (Journal σ)}

/-- **Those who are live are those who are held.** -/
theorem isLive_eq (h : Agrees l [] w) : w.isLive = l.held := by
  funext s
  unfold World.isLive Ledger.held Ledger.guarded
  rw [h.holders s, List.count_nil, Nat.add_zero]
  apply Bool.eq_iff_iff.mpr
  rw [decide_eq_true_iff, Bool.or_eq_true_iff, List.contains_iff_mem, List.contains_iff_mem,
    Nat.add_pos_iff_pos_or_pos, List.count_pos_iff, List.count_pos_iff]

theorem exists_entry (h : Agrees l past w) {cell : CellId} (hcell : cell < w.cells.size) :
    ∃ e, l.entries[cell]? = some e :=
  ⟨_, List.getElem?_eq_getElem (h.cells ▸ hcell)⟩

/-- **What a cell answers** is what the ledger says. -/
theorem sight?_eq (h : Agrees l [] w) {cell : CellId} (hcell : cell < w.cells.size) :
    l.sight? l.held cell = some (sight w cell) := by
  obtain ⟨e, he⟩ := h.exists_entry hcell
  obtain ⟨hvalue, hversion, _, hlive⟩ := h.entry cell e he
  unfold Ledger.sight? sight World.liveCount
  rw [he, Option.map_some, hvalue, hversion, List.countP_eq_length_filter,
    List.countP_eq_length_filter, hlive, h.isLive_eq]

/-- What is kept besides tables, guards apart, is of no account. -/
theorem modifyHost (h : Agrees l past w) {f : Journal σ → Journal σ}
    (hf : ∀ j, (f j).guards = j.guards) : Agrees l past (w.modifyHost f) :=
  { h with guards := (hf w.host).trans h.guards }

/-! ## What requests do -/

/-- A new cell. -/
theorem made (h : Agrees l [] w) (value : Value) :
    Agrees { l with entries := l.entries ++ [⟨value, 0, []⟩] } [] (w.addCell value) := by
  have hentry : ∀ cell (e : Entry), (l.entries ++ [⟨value, 0, []⟩])[cell]? = some e →
      l.entries[cell]? = some e ∨ cell = w.cells.size ∧ e = ⟨value, 0, []⟩ := by
    intro cell e he
    rw [List.getElem?_append, List.getElem?_singleton] at he
    split at he
    · exact .inl he
    · rename_i hge
      split at he
      · cases he
        exact .inr ⟨by rw [h.cells]; omega, rfl⟩
      · cases he
  refine ⟨h.guards, ?_, h.subscribers, h.holders, ?_, ?_, ?_⟩
  · show (w.cells.push _).size = _
    rw [Array.size_push, h.cells, List.length_append]
    rfl
  · intro cell e he
    rw [World.cell_addCell]
    rcases hentry cell e he with hold | ⟨hcell, rfl⟩
    · have hlt := (List.getElem?_eq_some_iff.mp hold).1
      rw [if_neg (by rw [h.cells]; exact Nat.ne_of_lt hlt)]
      exact h.entry cell e hold
    · rw [if_pos hcell]
      exact ⟨rfl, rfl, fun _ hs => hs, rfl⟩
  · intro cell e he s hs
    rcases hentry cell e he with hold | ⟨_, rfl⟩
    · exact h.hears cell e hold s hs
    · cases hs
  · intro r hr
    refine ⟨?_, (h.round r hr).2⟩
    show r.cell < (w.cells.push _).size
    rw [Array.size_push]
    exact Nat.lt_succ_of_lt (h.round r hr).1

/-- The guard of a new subscriber is the first to hold it. -/
theorem holders_subscribed (h : Agrees l [] w) (cell : CellId) (reaction : Reaction (Callback κ))
    (s : SubscriberId) : (w.subscribe cell reaction).subscriberHolders s =
      (l.guards ++ [w.subscribers.size]).count s + l.turns.count s := by
  have hholders := h.holders s
  rw [List.count_nil] at hholders
  rw [World.subscriberHolders_subscribe, List.count_append, List.count_singleton]
  by_cases hs : s = w.subscribers.size
  · have hfresh : w.subscriberHolders s = 0 := by
      unfold World.subscriberHolders
      rw [hs, Array.getElem?_eq_none (Nat.le_refl _)]
      rfl
    rw [if_pos hs, if_pos (beq_iff_eq.mpr hs.symm)]
    omega
  · rw [if_neg hs, if_neg fun he => hs (beq_iff_eq.mp he).symm]
    omega

/-- **A new subscriber**, held by its guard. -/
theorem subscribed (h : Agrees l [] w) {cell : CellId} (hcell : cell < w.cells.size) (run : κ) :
    Agrees { l.modifyEntry cell fun e => { e with registered := e.registered ++ [w.subscribers.size] } with
        subscribers := w.subscribers.size + 1
        guards := l.guards ++ [w.subscribers.size] } []
      ((w.subscribe cell (.handler ⟨run, w.subscribers.size, cell⟩)).modifyHost
        fun j => { j with guards := j.guards ++ [w.subscribers.size] }) := by
  refine ⟨congrArg (· ++ _) h.guards, ?_, Array.size_push _, h.holders_subscribed cell _, ?_, ?_, ?_⟩
  · rw [Ledger.length_modifyEntry, ← h.cells]
    exact World.size_cells_modifyCell _ _ _
  · intro other e he
    obtain ⟨e₀, he₀, rfl⟩ := Ledger.getElem?_modifyEntry he
    -- nobody but the new subscriber is more live than before, and it is new to all other cells
    have hold : e₀.Agrees (w.cell other)
        (w.subscribe cell (.handler ⟨run, w.subscribers.size, cell⟩)).isLive := by
      refine (h.entry other e₀ he₀).congr fun s hs => ?_
      obtain ⟨_, hreaction⟩ := h.hears other e₀ he₀ s hs
      unfold World.isLive
      rw [World.subscriberHolders_subscribe, if_neg (Nat.ne_of_lt (World.lt_of_reaction? hreaction))]
    show Entry.Agrees _ ((w.subscribe cell _).cell other) (w.subscribe cell _).isLive
    rw [World.cell_subscribe hcell]
    by_cases hother : other = cell
    · subst hother
      rw [if_pos rfl, if_pos rfl]
      exact hold.subscribe w.subscribers.size
    · rw [if_neg hother, if_neg fun he => hother he.symm]
      exact hold
  · intro other e he s hs
    obtain ⟨e₀, he₀, rfl⟩ := Ledger.getElem?_modifyEntry he
    have hnew : s ∈ e₀.registered ∨ s = w.subscribers.size ∧ cell = other := by
      split at hs
      · rename_i hother
        exact (List.mem_append.mp hs).imp_right fun hs => ⟨List.mem_singleton.mp hs, hother⟩
      · exact .inl hs
    rcases hnew with hold | ⟨rfl, rfl⟩
    · exact (h.hears other e₀ he₀ s hold).subscribe cell _
    · refine ⟨run, ?_⟩
      show (w.subscribe cell _).reaction? _ = _
      rw [World.reaction?_subscribe, if_pos rfl]
  · intro r hr
    obtain ⟨hlt, hwaiting⟩ := h.round r hr
    exact ⟨(World.size_cells_modifyCell _ _ _).symm ▸ hlt, fun s hs => (hwaiting s hs).subscribe cell _⟩

/-- One who held a subscriber lets go of it. -/
theorem released (h : Agrees l past w) (s : SubscriberId) {guards past' : List SubscriberId}
    (hcount : ∀ t, guards.count t + past'.count t + (if s = t then 1 else 0) =
      l.guards.count t + past.count t) {f : Journal σ → Journal σ} (hf : (f w.host).guards = guards) :
    Agrees { l with guards } past' ((w.releaseSubscriber s).modifyHost f) := by
  have hholders : ∀ t, (w.releaseSubscriber s).subscriberHolders t =
      guards.count t + l.turns.count t + past'.count t := by
    intro t
    rw [World.subscriberHolders_releaseSubscriber, h.holders t]
    have := hcount t
    omega
  have hlive : ∀ t, (w.releaseSubscriber s).isLive t = true → w.isLive t = true := by
    intro t ht
    refine decide_eq_true (Nat.lt_of_lt_of_le (of_decide_eq_true ht) ?_)
    rw [World.subscriberHolders_releaseSubscriber]
    exact Nat.sub_le _ _
  have hreaction : ∀ t, (w.releaseSubscriber s).reaction? t = w.reaction? t :=
    fun t => World.reaction?_modifyHolders w s t _
  refine ⟨hf, h.cells, ?_, hholders, fun cell e he => (h.entry cell e he).mono hlive, ?_, ?_⟩
  · exact Array.size_modify.trans h.subscribers
  · exact fun cell e he t ht => (h.hears cell e he t ht).congr (hreaction t)
  · exact fun r hr => ⟨(h.round r hr).1, fun t ht => ((h.round r hr).2 t ht).congr (hreaction t)⟩

/-- The innermost round goes on: a turn of it begins or ends. -/
theorem turned (h : Agrees l past w) {r r' : Round} {rounds : List Round} {past' : List SubscriberId}
    (hrounds : l.rounds = r :: rounds) (hcell : r'.cell = r.cell)
    (hwaiting : ∀ s ∈ r'.waiting, s ∈ r.waiting)
    (hcount : ∀ s, r'.turns.count s + past'.count s = r.turns.count s + past.count s) :
    Agrees { l with rounds := r' :: rounds } past' w := by
  refine { h with holders := fun s => ?_, round := fun t ht => ?_ }
  · have hturn := hcount s
    have hturns' : Ledger.turns { l with rounds := r' :: rounds } =
        r'.turns ++ Ledger.turns { l with rounds } := Ledger.turns_of_rounds rfl
    show w.subscriberHolders s = l.guards.count s + _ + _
    rw [h.holders s, hturns', Ledger.turns_of_rounds hrounds, List.count_append, List.count_append]
    omega
  · rcases List.mem_cons.mp ht with rfl | ht
    · obtain ⟨hlt, hhears⟩ := h.round r (hrounds ▸ List.mem_cons_self)
      rw [hcell]
      exact ⟨hlt, fun s hs => hhears s (hwaiting s hs)⟩
    · exact h.round t (hrounds ▸ List.mem_cons_of_mem _ ht)

/-- A round that is over goes away. -/
theorem finished (h : Agrees l past w) {r : Round} {rounds : List Round} (hrounds : l.rounds = r :: rounds)
    (hover : r.turns = []) : Agrees { l with rounds } past w := by
  refine { h with holders := fun s => ?_, round := fun t ht => ?_ }
  · rw [h.holders s, Ledger.turns_of_rounds hrounds, hover]
    rfl
  · exact h.round t (hrounds ▸ List.mem_cons_of_mem _ ht)

/-! ## Writes -/

section

variable {cell : CellId} {e : Entry}

/-- **A round is for those who are live** when the value is stored, in the order in which they
subscribed. -/
theorem round_eq (h : Agrees l [] w) (he : l.entries[cell]? = some e) (hcell : cell < w.cells.size)
    (value : Value) :
    ((w.storeValue cell value).cell cell).subscribers = e.registered.filter w.isLive := by
  rw [World.cell_storeValue hcell, if_pos rfl]
  exact (h.entry cell e he).live

/-- Those for whom a round is are held for it, and nobody else; so the same are live as before. -/
theorem holdRound (h : Agrees l [] w) (he : l.entries[cell]? = some e) (value : Value) {ss : List SubscriberId}
    (hss : ss = e.registered.filter w.isLive) :
    (∀ s, (ss.foldl World.holdSubscriber (w.storeValue cell value)).subscriberHolders s =
        w.subscriberHolders s + ss.count s) ∧
      (ss.foldl World.holdSubscriber (w.storeValue cell value)).isLive = w.isLive := by
  have hmember : ∀ s ∈ ss, w.isLive s = true ∧ Hears w cell s := by
    intro s hs
    rw [hss] at hs
    obtain ⟨hregistered, hlive⟩ := List.mem_filter.mp hs
    exact ⟨hlive, h.hears cell e he s hregistered⟩
  have hholders : ∀ s, (ss.foldl World.holdSubscriber (w.storeValue cell value)).subscriberHolders s =
      w.subscriberHolders s + ss.count s := by
    refine World.subscriberHolders_foldl_holdSubscriber fun s hs => ?_
    obtain ⟨_, run, hrun⟩ := hmember s hs
    show (w.reaction? s).isSome = true
    rw [hrun]
    rfl
  refine ⟨hholders, funext fun s => ?_⟩
  unfold World.isLive
  rw [hholders s]
  apply decide_eq_decide.mpr
  refine ⟨fun hpos => ?_, fun hpos => Nat.add_pos_left hpos _⟩
  rcases Nat.add_pos_iff_pos_or_pos.mp hpos with hold | hnew
  · exact hold
  · exact of_decide_eq_true (hmember s (List.count_pos_iff.mp hnew)).1

/-- **A write is called**: it stores its value, forgets the dead, and holds those who are live. -/
theorem called (h : Agrees l [] w) (hcell : cell < w.cells.size) (value : Value)
    {ss : List SubscriberId} (hss : ((w.storeValue cell value).cell cell).subscribers = ss) :
    ∃ l', l.call l.held cell value = some l' ∧ l'.rounds = ⟨cell, value, none, ss⟩ :: l.rounds ∧
      Agrees l' [] (ss.foldl World.holdSubscriber (w.storeValue cell value)) := by
  obtain ⟨e, he⟩ := h.exists_entry hcell
  replace hss : ss = e.registered.filter w.isLive := hss.symm.trans (h.round_eq he hcell value)
  obtain ⟨hholders, hlive⟩ := h.holdRound he value hss
  have hreaction : ∀ s, (ss.foldl World.holdSubscriber (w.storeValue cell value)).reaction? s =
      w.reaction? s := fun s => World.reaction?_foldl_holdSubscriber ss (w.storeValue cell value) s
  have hsize := World.size_cells_storeValue w cell value
  obtain ⟨subscribers, hfold, hsubscribers⟩ :=
    World.exists_foldl_holdSubscriber ss (w.storeValue cell value)
  refine ⟨{ l.modifyEntry cell fun e => { e with value, version := e.version + 1 } with
    rounds := ⟨cell, value, none, ss⟩ :: l.rounds }, ?_, rfl, ?_⟩
  · unfold Ledger.call
    rw [he, Option.map_some, hss, h.isLive_eq]
  rw [hfold] at hholders hlive hreaction ⊢
  refine ⟨h.guards, ?_, hsubscribers.trans h.subscribers, fun s => ?_, ?_, ?_, ?_⟩
  · rw [Ledger.length_modifyEntry, ← h.cells]
    exact hsize
  · have hturns : (Round.turns ⟨cell, value, none, ss⟩ ++ l.turns).count s =
        ss.count s + l.turns.count s := List.count_append
    show World.subscriberHolders _ s =
      l.guards.count s + (Round.turns ⟨cell, value, none, ss⟩ ++ l.turns).count s + 0
    rw [hholders s, h.holders s, hturns, List.count_nil]
    omega
  · intro other e' he'
    obtain ⟨e₀, he₀, rfl⟩ := Ledger.getElem?_modifyEntry he'
    rw [hlive]
    show Entry.Agrees _ ((w.storeValue cell value).cell other) w.isLive
    rw [World.cell_storeValue hcell]
    by_cases hother : other = cell
    · rw [if_pos hother, if_pos hother.symm, ← hother]
      exact (h.entry other e₀ he₀).store value
    · rw [if_neg hother, if_neg fun he => hother he.symm]
      exact h.entry other e₀ he₀
  · intro other e' he' s hs
    obtain ⟨e₀, he₀, rfl⟩ := Ledger.getElem?_modifyEntry he'
    refine (h.hears other e₀ he₀ s ?_).congr (hreaction s)
    split at hs <;> exact hs
  · intro r hr
    rcases List.mem_cons.mp hr with rfl | hr
    · refine ⟨hsize.symm ▸ hcell, fun s hs => ?_⟩
      replace hs : s ∈ ss := hs
      rw [hss] at hs
      exact (h.hears cell e he s (List.mem_filter.mp hs).1).congr (hreaction s)
    · obtain ⟨hlt, hwaiting⟩ := h.round r hr
      exact ⟨hsize.symm ▸ hlt, fun s hs => (hwaiting s hs).congr (hreaction s)⟩

end

end Agrees

end BoundView.Delivery
