import BoundView.Proofs.Component.Arriving
import BoundView.Proofs.World.Underway

/-!
# Computations stand an audit

If running a handler keeps the world tended, so does every computation that may run handlers. A write to a
key of the component is the one step that takes an argument: from the value that is stored to the scan of
the watcher nothing else runs, and the rest of the round is handlers. An edit of a bound element is the
other: from the live value that is assigned to the listener that carries it to the key the element is
loose, and when the listener has run the edit has settled.

Main statements: `tends_set`, `tends_edit`, `mount_tends`.
-/

namespace BoundView

open BoundView.Dom (Document NodeId)
open BoundView.Dom.Document (Grows Retains)
open BoundView.World (Orderly Tended awaiting)

variable {κ σ : Type}

/-- **Behind a watcher there are handlers.** At the cell of a key nobody else patches. -/
theorem World.Orderly.handler_of_mem {w : World κ σ} {note : σ → Prop} {pending : SubscriberId → Nat}
    (hw : w.Orderly note pending []) {id : ComponentId} {key : String} {cell : CellId}
    {s : SubscriberId} {others : List SubscriberId}
    (hsubscribers : (w.cell cell).subscribers = s :: others)
    (hs : w.reaction? s = some (.patch id key)) {r : SubscriberId} (hr : r ∈ others) :
    ∃ run, w.reaction? r = some (.handler run) := by
  have hmem : ∀ t ∈ s :: others, t ∈ (w.cell cell).subscribers := fun t ht => hsubscribers ▸ ht
  obtain ⟨reaction, hreaction⟩ :=
    Option.isSome_iff_exists.mp (hw.there cell r (hmem r (List.mem_cons_of_mem s hr)))
  cases reaction with
  | handler run => exact ⟨run, hreaction⟩
  | patch other k =>
    have hcell := hw.tuned cell s (hmem s List.mem_cons_self) id key hs
    have hother := hw.tuned cell r (hmem r (List.mem_cons_of_mem s hr)) other k hreaction
    obtain ⟨rfl, rfl⟩ := hw.separate id key other k cell hcell hother
    obtain rfl := hw.single s r other k hs hreaction
    have hnodup := hw.nodup cell
    rw [hsubscribers] at hnodup
    exact absurd hr (List.nodup_cons.mp hnodup).1

/-! ## A new component -/

namespace World

/-- Watching a key changes cells, subscribers and components. -/
theorem exists_watch (w : World κ σ) (id : ComponentId) (key : String) :
    ∃ cells subscribers components, w.watch id key = { w with cells, subscribers, components } := by
  unfold World.watch
  split
  · exact ⟨w.cells, w.subscribers, w.components, rfl⟩
  · exact ⟨_, _, _, rfl⟩

/-- Adding a component changes cells, subscribers and components. -/
theorem exists_addComponent (w : World κ σ) (document : DocumentId) (root : NodeId)
    (config : Config κ) : ∃ cells subscribers components,
      w.addComponent document root config = { w with cells, subscribers, components } := by
  have hall : ∀ (keys : List String) (v : World κ σ) (id : ComponentId),
      (∃ cells subscribers components, v = { w with cells, subscribers, components }) →
        ∃ cells subscribers components, keys.foldl (fun w key => w.watch id key) v =
          { w with cells, subscribers, components } := by
    intro keys
    induction keys with
    | nil => exact fun _ _ hv => hv
    | cons key rest ih =>
      rintro v id ⟨_, _, _, rfl⟩
      obtain ⟨_, _, _, hwatch⟩ := exists_watch _ id key
      exact ih _ id ⟨_, _, _, hwatch⟩
  obtain ⟨_, hmade⟩ := w.exists_makeStore config.data
  unfold World.addComponent
  dsimp only
  rw [hmade]
  exact hall _ _ _ ⟨_, _, _, rfl⟩

/-- **Another component is added.** -/
theorem Tended.addComponent {w : World κ σ} {note : σ → Prop} {a : Audit κ σ}
    {pending : SubscriberId → Nat} {c : Course} (h : w.Tended note a pending c)
    {document : DocumentId} (hdocument : document < w.documents.size) (root : NodeId)
    (config : Config κ) : (w.addComponent document root config).Tended note a pending c := by
  have horderly := h.orderly.addComponent hdocument root config
  have hadds := w.adds_addComponent document root config
  obtain ⟨_, _, _, hadded⟩ := w.exists_addComponent document root config
  rw [hadded] at horderly hadds ⊢
  generalize hv : ({ w with cells := _, subscribers := _, components := _ } : World κ σ) = v
    at horderly hadds ⊢
  have hcomponent : v.component a.id = w.component a.id := hadds.component a.id h.audited.there
  have halive : v.isAlive a.id = w.isAlive a.id := by
    unfold World.isAlive
    rw [hcomponent]
  have hcell : ∀ key cell, a.charter.store.cell? key = some cell → v.cell cell = w.cell cell :=
    fun key cell hkey => hadds.cell cell (h.audited.cell_lt h.orderly hkey)
  have hreaction : ∀ s, s < w.subscribers.size → v.reaction? s = w.reaction? s := by
    intro s hs
    unfold World.reaction?
    rw [hadds.subscriber s hs]
  have hlookup : v.lookup a.charter.store = w.lookup a.charter.store := by
    funext key
    refine lookup_congr ?_
    unfold World.value?
    cases hkey : a.charter.store.cell? key with
    | none => rfl
    | some cell => rw [Option.map_some, Option.map_some, hcell key cell hkey]
  have hwrites : v.writes a.charter.store = w.writes a.charter.store := by
    refine writes_congr fun cell hmem => ?_
    obtain ⟨key, hkey⟩ := (Store.mem_cells_iff a.keys).mp hmem
    rw [hcell key cell hkey]
  have hdocument : v.document = w.document := hv ▸ rfl
  have hhost : v.host = w.host := hv ▸ rfl
  refine h.edit horderly (hv ▸ rfl) hhost ?_
  rw [hlookup]
  refine ⟨Nat.lt_of_lt_of_le h.audited.there hadds.components, ?_, fun hnow key cell hkey => ?_,
    fun hnow s key hs => ?_, fun ht => ?_, fun hnow ht => ?_, ?_, fun hplain hnow => ?_⟩
  · rw [hcomponent]
    exact h.audited.charter
  · obtain ⟨s, rest, hsubscribers, hs⟩ := h.audited.leads (halive ▸ hnow) key cell hkey
    exact ⟨s, rest, (hcell key cell hkey).symm ▸ hsubscribers, (hreaction s (lt_of_reaction? hs)).trans hs⟩
  · rcases Nat.lt_or_ge s w.subscribers.size with hlt | hge
    · exact h.audited.rested (halive ▸ hnow) s key ((hreaction s hlt).symm.trans hs)
    · refine Nat.eq_zero_of_not_pos fun hpos => ?_
      have hthere := h.orderly.waiting s hpos
      rw [reaction?_of_size_le hge] at hthere
      cases hthere
  · rw [hcomponent]
    exact h.audited.unscanned ht
  · rw [hcomponent, hwrites, hhost]
    exact h.audited.tally (halive ▸ hnow) ht
  · rw [hdocument]
    exact h.audited.listens
  · rw [hdocument]
    exact h.audited.fresh hplain (halive ▸ hnow)

end World

namespace Run

variable {α : Type} {w : World κ σ} {note : σ → Prop} {a : Audit κ σ}
  {pending : SubscriberId → Nat} {c c' : Course}

/-! ## The scan of a write -/

/-- **A scan** does not fail in an orderly world. -/
theorem refresh_eq_ok (hw : w.Orderly note pending []) (id : ComponentId) (key : String) :
    refresh id key w = .ok (w.scanStats id key) (w.scanned id key) := by
  have hstep : ∀ (w : World κ σ) (f : World κ σ → World κ σ),
      Triple (· = w) (modify f : Run κ σ Unit) (fun _ w' => w' = f w) fun _ => False :=
    fun w f => Triple.modify fun _ he => congrArg f he
  have hrun : Triple (· = w) (refresh id key)
      (fun stats w' => stats = w.scanStats id key ∧ w' = w.scanned id key) fun _ => False := by
    refine Triple.get_bind fun w₀ he => ?_
    subst he
    unfold World.scanStats World.scanned
    dsimp only
    cases ht : (w₀.component id).template with
    | none => exact Triple.pure fun _ he => ⟨rfl, he⟩
    | some t =>
      have hfault : (w₀.patched (w₀.component id) t key).fault = none :=
        ((hw.housed id t ht).patches _ _ key _).1
      refine Triple.bind (hstep _ _) fun _ => Triple.bind (hstep _ _) fun _ => ?_
      refine Triple.get_bind fun w₁ he => ?_
      subst he
      refine Triple.bind (hstep _ _) fun _ => Triple.bind (hstep _ _) fun _ => ?_
      split
      · rename_i f hsome
        exact absurd (hfault.symm.trans hsome) (Option.some_ne_none f).symm
      · refine Triple.bind (hstep _ _) fun _ => Triple.pure ?_
        rintro _ rfl
        exact ⟨rfl, rfl⟩
  obtain ⟨_, _, hresult, rfl, rfl⟩ := hrun.exists_ok rfl
  exact hresult

/-- **The watcher's turn** is a scan. -/
theorem react_watcher (hw : w.Orderly note pending []) {id : ComponentId}
    (halive : w.isAlive id = true) {key : String} {s : SubscriberId}
    (hs : w.reaction? s = some (.patch id key)) (handle : Handle κ σ) (value : Value) :
    react handle s value w = .ok () (w.scanned id key) := by
  have hrun : Triple (· = w) (react handle s value) (fun _ w' => w' = w.scanned id key)
      fun _ => False := by
    refine Triple.get_bind fun w₀ he => ?_
    subst he
    rw [show (w₀.subscribers[s]?).map Subscriber.reaction = some (.patch id key) from hs]
    refine Triple.get_bind fun w₁ he => ?_
    subst he
    rw [if_pos halive]
    refine Triple.discard (Q := fun _ w' => w' = w₁.scanned id key) ?_ fun _ _ h => h
    rintro _ rfl
    rw [refresh_eq_ok hw id key]
    rfl
  obtain ⟨_, _, hresult, rfl⟩ := hrun.exists_ok rfl
  exact hresult

/-- A turn that returns is over, and the round goes on. -/
theorem notify_cons_of_ok {turn : SubscriberId → Run κ σ Unit} {s : SubscriberId} {w' : World κ σ}
    (hturn : turn s w = .ok () w') (round : List SubscriberId) :
    notify turn (s :: round) w = notify turn round (w'.releaseSubscriber s) := by
  show (do
    try turn s
    catch f =>
      modify fun w => (s :: round).foldl World.releaseSubscriber w
      throw f
    modify (·.releaseSubscriber s)
    notify turn round : Run κ σ Unit) w = _
  rw [bind_ok (tryCatch_ok hturn)]
  rfl

/-- **A write scans first.** In an orderly world in which the watcher of a key comes first at its cell, what
is left to be done once the value is stored and the component has scanned is the turns of the others. -/
theorem set_eq (hw : w.Orderly note pending []) {id : ComponentId} (halive : w.isAlive id = true)
    {key : String} {cell : CellId} (hlt : cell < w.cells.size) {s : SubscriberId}
    {others : List SubscriberId} (hsubscribers : (w.cell cell).subscribers = s :: others)
    (hs : w.reaction? s = some (.patch id key)) (value : Value) (handle : Handle κ σ) :
    ∃ (subscribers : Array (Subscriber κ)) (v : World κ σ),
      v = { (w.storeValue cell value).scanned id key with subscribers } ∧
        (∀ r, v.reaction? r = w.reaction? r) ∧
          v.Orderly note (awaiting pending (others.filter w.isLive)) [] ∧
            set handle cell value w =
              notify (react handle · value) (others.filter w.isLive) v := by
  have hlive : w.isLive s = true :=
    decide_eq_true (Nat.lt_of_le_of_lt (Nat.zero_le _) (hw.held s id key halive hs))
  have hround : ((w.storeValue cell value).cell cell).subscribers =
      s :: others.filter w.isLive := by
    rw [World.cell_storeValue hlt, if_pos rfl, hsubscribers, List.filter_cons_of_pos hlive]
  have hstored := hw.storeValue cell value
  have hheld := hstored.holdRound (hround ▸ hstored.there cell)
  have hreaction := fun r => World.reaction?_foldl_holdSubscriber (s :: others.filter w.isLive)
    (w.storeValue cell value) r
  obtain ⟨subscribers, hfold, _⟩ := World.exists_foldl_holdSubscriber (s :: others.filter w.isLive)
    (w.storeValue cell value)
  have hset : set handle cell value w = notify (react handle · value) (s :: others.filter w.isLive)
      ((s :: others.filter w.isLive).foldl World.holdSubscriber (w.storeValue cell value)) := by
    rw [← hround]
    rfl
  rw [hfold] at hheld hreaction hset
  generalize hv : ({ w.storeValue cell value with subscribers } : World κ σ) = v at *
  have hturn : react handle s value v = .ok () (v.scanned id key) :=
    react_watcher hheld (hv ▸ halive) ((hreaction s).trans hs) handle value
  refine ⟨((v.scanned id key).releaseSubscriber s).subscribers,
    (v.scanned id key).releaseSubscriber s, ?_, fun r => ?_, (hheld.scanned id key).releaseTurn, ?_⟩
  · have hscanned := World.scanned_withSubscribers (w.storeValue cell value) subscribers id key
    rw [hv] at hscanned
    rw [hscanned]
    rfl
  · rw [World.reaction?_releaseSubscriber]
    unfold World.reaction?
    rw [World.subscribers_scanned]
    exact hreaction r
  · rw [hset, notify_cons_of_ok hturn]

/-! ## Keeping worlds tended -/

/-- **A computation that keeps the world tended**, whatever waits for turns and however far events have
come. -/
def Tends (note : σ → Prop) (a : Audit κ σ) (m : Run κ σ α) : Prop :=
  ∀ pending c, Keeps (fun w => w.Tended note a pending c) m

namespace Tends

variable {β : Type}

theorem pure (x : α) : Tends note a (Pure.pure x : Run κ σ α) := fun _ _ => Keeps.pure x

theorem throw (f : Fault) : Tends note a (MonadExcept.throw f : Run κ σ α) :=
  fun _ _ => Keeps.throw f

theorem bind {m : Run κ σ α} {f : α → Run κ σ β} (hm : Tends note a m)
    (hf : ∀ x, Tends note a (f x)) : Tends note a (m >>= f) :=
  fun pending c => .bind (hm pending c) fun x => hf x pending c

theorem discard {m : Run κ σ α} (hm : Tends note a m) : Tends note a (Functor.discard m) :=
  fun pending c => (hm pending c).discard

theorem modify {f : World κ σ → World κ σ}
    (h : ∀ pending c w, w.Tended note a pending c → (f w).Tended note a pending c) :
    Tends note a (modify f : Run κ σ Unit) :=
  fun pending c => .modify (h pending c)

/-- Reading the world: the rest keeps it tended, whatever was read. -/
theorem get_bind {f : World κ σ → Run κ σ β} (h : ∀ w, Tends note a (f w)) :
    Tends note a ((MonadState.get : Run κ σ (World κ σ)) >>= f) :=
  fun pending c => .get_bind fun w _ => h w pending c

end Tends

theorem tends_tell (traces : List Trace) : Tends note a (tell traces : Run κ σ Unit) :=
  .modify fun _ _ _ h => h.tell traces

theorem tends_readDocument (document : DocumentId)
    (read : Document (Action κ) → Except Dom.Fault α) :
    Tends note a (readDocument document read : Run κ σ α) :=
  fun _ _ => keeps_readDocument document read

/-! ## Writes -/

/-- **A scan of another component.** -/
theorem tends_refreshOther {id : ComponentId} (hid : a.id ≠ id) (key : String) :
    Tends note a (refresh id key : Run κ σ PatchStats) := by
  intro pending c w hw
  rw [refresh_eq_ok hw.orderly id key]
  exact hw.scannedOther hid key

/-- **A scan that is owed.** -/
theorem refresh_tends (key : String) :
    Triple (fun w => w.Tended note (a.owing 1) pending c) (refresh a.id key : Run κ σ PatchStats)
      (fun _ w => w.Tended note a pending c) fun _ => False := by
  intro w hw
  rw [refresh_eq_ok hw.orderly a.id key]
  exact hw.request key

section

variable {handle : Handle κ σ}
  (hhandle : ∀ run occasion, occasion ≠ .hook a.id → Tends note a (handle run occasion))

include hhandle

/-- The turn of a subscriber that is no watcher of the component, or of one that is dead. -/
theorem tends_react (s : SubscriberId) (value : Value) :
    Triple (fun w => w.Tended note a pending c ∧ (w.isAlive a.id = true →
      ∀ key, w.reaction? s ≠ some (.patch a.id key))) (react handle s value)
      (fun _ w => w.Tended note a pending c) fun w => w.Tended note a pending c := by
  refine Triple.get_bind fun w hw => ?_
  have hs : w.reaction? s = (w.subscribers[s]?).map Subscriber.reaction := rfl
  cases hreaction : (w.subscribers[s]?).map Subscriber.reaction with
  | none => exact (Tends.pure _ pending c).at_world hw.1
  | some reaction =>
    cases reaction with
    | handler run => exact (hhandle run (.write value) (by simp) pending c).at_world hw.1
    | patch id key =>
      refine Triple.get_bind fun w' he => ?_
      subst he
      split
      · rename_i halive
        have hid : a.id ≠ id := by
          rintro rfl
          exact hw.2 halive key (hs.trans hreaction)
        exact ((tends_refreshOther hid key).discard pending c).at_world hw.1
      · exact (Tends.pure _ pending c).at_world hw.1

/-- **A round** in which no watcher of the component waits. -/
theorem notify_tends (value : Value) (round : List SubscriberId) :
    Triple (fun w => w.Tended note a (awaiting pending round) c) (notify (react handle · value) round)
      (fun _ w => w.Tended note a pending c) fun w => w.Tended note a pending c := by
  induction round with
  | nil => exact Triple.pure fun _ h => h
  | cons s round ih =>
    unfold notify
    refine Triple.bind (Q := fun _ w => w.Tended note a (awaiting pending (s :: round)) c)
      (Triple.tryCatch ((tends_react hhandle s value).pre fun w hw => ⟨hw, ?_⟩) fun f => ?_)
      fun _ => ?_
    · intro halive key hs
      have hnone : pending s + (s :: round).count s = 0 := hw.audited.rested halive s key hs
      rw [List.count_cons_self] at hnone
      omega
    · exact Triple.bind (Q := fun _ w => w.Tended note a pending c)
        (Triple.modify fun _ h => h.releaseRound) fun _ => Triple.throw fun _ h => h
    · exact Triple.bind (Q := fun _ w => w.Tended note a (awaiting pending round) c)
        (Triple.modify fun _ h => h.releaseTurn) fun _ => ih

/-- The rest of a write, when no watcher of the component is in the round. -/
theorem set_tends {cell : CellId} {value : Value} {w : World κ σ}
    (hstored : (w.storeValue cell value).Tended note a pending c)
    (hothers : w.isAlive a.id = true → ∀ key, a.charter.store.cell? key ≠ some cell) :
    Triple (· = w) (set handle cell value) (fun _ w' => w'.Tended note a pending c)
      fun w' => w'.Tended note a pending c := by
  refine Triple.bind (Q := fun _ w' => w' = w.storeValue cell value)
    (Triple.modify fun _ he => by rw [he]) fun _ => ?_
  refine Triple.get_bind fun w' he => ?_
  subst he
  refine Triple.bind (Q := fun _ w' => w'.Tended note a
    (awaiting pending ((w.storeValue cell value).cell cell).subscribers) c) (Triple.modify ?_)
    fun _ => notify_tends hhandle value _
  rintro _ rfl
  refine hstored.holdRound (hstored.orderly.there cell) fun halive s hs key hkey => ?_
  have hcell := hstored.orderly.tuned cell s hs a.id key hkey
  rw [hstored.audited.store] at hcell
  exact hothers halive key hcell

/-- **A write to a key of the component.** What is aimed at the nodes that its scan reaches settles. -/
theorem set_settles {key : String} {cell : CellId} (hcell : a.charter.store.cell? key = some cell)
    (hsettles : c.Settles c' (a.Reaches key)) (value : Value) :
    Triple (fun w => w.Tended note a pending c) (set handle cell value)
      (fun _ w => w.Tended note a pending c') fun w => w.Tended note a pending c' := by
  intro w hw
  by_cases halive : w.isAlive a.id = true
  · obtain ⟨s, others, hsubscribers, hs⟩ := hw.audited.leads halive key cell hcell
    have hlt := hw.audited.cell_lt hw.orderly hcell
    obtain ⟨subscribers, v, hv, hreaction, horderly, hset⟩ :=
      set_eq hw.orderly halive hlt hsubscribers hs value handle
    rw [hset]
    refine notify_tends hhandle value _ v ?_
    have haccepted := hw.accept hcell value hsettles
    subst hv
    refine haccepted.edit horderly rfl rfl (haccepted.audited.withSubscribers (fun r => ?_) ?_)
    · rw [hreaction r]
      unfold World.reaction?
      rw [World.subscribers_scanned]
      rfl
    · intro _ t k ht
      have ht' : w.reaction? t = some (.patch a.id k) := by
        unfold World.reaction? at ht
        rw [World.subscribers_scanned] at ht
        exact ht
      have hcount : (others.filter w.isLive).count t = 0 := by
        refine List.count_eq_zero_of_not_mem fun hmem => ?_
        obtain ⟨run, hrun⟩ :=
          hw.orderly.handler_of_mem hsubscribers hs (List.mem_of_mem_filter hmem)
        rw [ht'] at hrun
        cases hrun
      show pending t + (others.filter w.isLive).count t = 0
      rw [hcount, hw.audited.rested halive t k ht']
  · refine set_tends hhandle ((hw.storeDead halive cell value).free hsettles fun _ hnow => ?_)
      (fun hnow => absurd hnow halive) w rfl
    exact absurd hnow halive

/-- **Any write**, with all that follows it. -/
theorem tends_set (cell : CellId) (value : Value) : Tends note a (set handle cell value) := by
  intro pending c
  by_cases hown : ∃ key, a.charter.store.cell? key = some cell
  · obtain ⟨key, hkey⟩ := hown
    exact set_settles hhandle hkey (.refl c _) value
  · have hcell : ∀ key, a.charter.store.cell? key ≠ some cell := fun key hkey => hown ⟨key, hkey⟩
    exact fun w hw => set_tends hhandle (hw.storeOther hcell value) (fun _ => hcell) w rfl

theorem tends_write (id : ComponentId) (key : String) (value : Value) :
    Tends note a (write handle id key value) := by
  refine .get_bind fun w => ?_
  unfold setKey
  cases (w.component id).store.cell? key with
  | none => exact .pure _
  | some cell => exact .bind (tends_set hhandle cell value) fun _ => .pure _

/-- **A write to a declared key of the component.** -/
theorem write_settles {key : String} (hkey : a.charter.store.contains key = true)
    (hsettles : c.Settles c' (a.Reaches key)) (value : Value) :
    Triple (fun w => w.Tended note a pending c) (write handle a.id key value)
      (fun _ w => w.Tended note a pending c') fun w => w.Tended note a pending c' := by
  obtain ⟨cell, hcell⟩ := Option.isSome_iff_exists.mp hkey
  refine Triple.get_bind fun w hw => ?_
  unfold setKey
  rw [hw.audited.store, hcell]
  exact Triple.bind ((set_settles hhandle hcell hsettles value).at_world hw) fun _ =>
    Triple.pure fun _ h => h

omit hhandle in
/-- A new subscriber that runs a handler. -/
theorem subscribe_tends (cell : CellId) (run : κ) :
    Triple (fun w => w.Tended note a pending c ∧ cell < w.cells.size)
      (subscribe cell (.handler run) : Run κ σ SubscriberId) (fun _ w => w.Tended note a pending c)
      fun w => w.Tended note a pending c := by
  refine Triple.get_bind fun w hw => ?_
  refine Triple.bind (Q := fun _ w => w.Tended note a pending c) (Triple.modify ?_) fun _ =>
    Tends.pure _ pending c
  rintro _ rfl
  exact hw.1.subscribe hw.2 run

omit hhandle in
theorem tends_subscribeKey (id : ComponentId) (key : String) (run : κ) :
    Tends note a (do subscribeKey ((← get).component id).store key (.handler run)) := by
  refine fun pending c => Triple.get_bind fun w hw => ?_
  unfold subscribeKey
  cases hcell : (w.component id).store.cell? key with
  | none => exact (Tends.pure _ pending c).at_world hw
  | some cell =>
    exact ((subscribe_tends cell run).map fun _ _ h => h).at_world
      ⟨hw, hw.orderly.cell_lt id key cell hcell⟩

/-! ## Listeners -/

omit hhandle in
/-- An activity on behalf of a living component. -/
theorem holding_tends (id : ComponentId) {body : Run κ σ α}
    (hbody : Triple (fun w => w.Tended note a pending c ∧ w.isAlive id = true) body
      (fun _ w => w.Tended note a pending c') fun w => w.Tended note a pending c) :
    Triple (fun w => w.Tended note a pending c ∧ w.isAlive id = true) (holding id body)
      (fun _ w => w.Tended note a pending c') fun w => w.Tended note a pending c := by
  refine Triple.holding (fun w hw => ⟨hw.1.holdComponent hw.2, ?_⟩) hbody
    (fun _ _ h => h.releaseComponent id) fun _ h => h.releaseComponent id
  unfold World.isAlive World.holdComponent
  rw [World.component_modifyComponent_self (World.lt_of_isAlive hw.2)]
  exact decide_eq_true (Nat.succ_pos _)

theorem call_tends (id : ComponentId) (name : String) (event : EventId) :
    Triple (fun w => w.Tended note a pending c ∧ w.isAlive id = true) (call handle id name event)
      (fun _ w => w.Tended note a pending c) fun w => w.Tended note a pending c := by
  refine Triple.get_bind fun w hw => ?_
  cases (w.component id).method? name with
  | none => exact (Tends.pure _ pending c).at_world hw.1
  | some run =>
    have hheld := holding_tends id
      ((hhandle run (.method id event) (by simp) pending c).pre fun _ h => h.1)
    exact Triple.bind (hheld.at_world hw) fun _ => Tends.pure _ pending c

/-- **One listener's turn.** -/
theorem tends_runAction (event : EventId) (action : Action κ) :
    Tends note a (runAction handle event action) := by
  intro pending c
  cases action with
  | handler run => exact hhandle run (.event event) (by simp) pending c
  | method id name =>
    refine Triple.get_bind fun w hw => ?_
    split
    · rename_i halive
      refine (holding_tends id ?_).at_world ⟨hw, halive⟩
      unfold runMethod
      refine Triple.bind (call_tends hhandle id name event) fun result => ?_
      cases result with
      | ok _ => exact Tends.pure _ pending c
      | error _ => exact Tends.get_bind (fun _ => tends_tell _) pending c
    · exact (Tends.pure _ pending c).at_world hw
  | model id key =>
    refine Triple.get_bind fun w hw => ?_
    split
    · rename_i halive
      refine (holding_tends id (Triple.pre ?_ fun _ h => h.1)).at_world ⟨hw, halive⟩
      unfold runModel
      refine Tends.get_bind (fun w => ?_) pending c
      refine .bind (tends_readDocument _ _) fun value => ?_
      refine .bind (tends_write hhandle id key _) fun result => ?_
      cases result with
      | ok _ => exact .pure _
      | error _ => exact tends_tell _
    · exact (Tends.pure _ pending c).at_world hw

theorem tends_runActions (event : EventId) (actions : List (Action κ)) :
    Tends note a (runActions handle event actions) := by
  induction actions with
  | nil => exact .pure _
  | cons action rest ih => exact .bind (tends_runAction hhandle event action) fun _ => ih

/-- **The listener that carries an edit to a key** settles the edit, if its event is aimed at a node
that is bound to the key. -/
theorem runAction_settles {event : EventId} {node : NodeId} {key : String}
    (haimed : c.aimed event node) (hbinds : a.Binds key node) :
    Triple (fun w => w.Tended note a pending c) (runAction handle event (.model a.id key))
      (fun _ w => w.Tended note a pending (c.settle event)) fun w => w.Tended note a pending c := by
  have hsettles := Course.settles_settle haimed hbinds.reaches
  have hfewer := fun (w : World κ σ) (h : w.Tended note a pending (c.settle event)) =>
    h.mono (c.extends_settle event)
  refine Triple.get_bind fun w hw => ?_
  split
  · rename_i halive
    refine (holding_tends a.id (Triple.pre ?_ fun _ h => h.1)).at_world ⟨hw, halive⟩
    refine Triple.get_bind fun w hw => Triple.at_world (P := fun w => w.Tended note a pending c) ?_ hw
    refine Triple.bind (tends_readDocument _ _ pending c) fun value => ?_
    refine Triple.bind ((write_settles hhandle hbinds.declared hsettles _).weaken
      (fun _ h => h) (fun _ _ h => h) hfewer) fun result => ?_
    refine Triple.weaken (Q := fun _ w => w.Tended note a pending (c.settle event)) ?_
      (fun _ h => h) (fun _ _ h => h) hfewer
    cases result with
    | ok _ => exact Tends.pure _ pending _
    | error _ => exact tends_tell _ pending _
  · rename_i hdead
    refine Triple.pure ?_
    rintro _ rfl
    exact hw.free hsettles fun _ halive => absurd halive hdead

/-- **Listeners one of which carries the edit** settle it, whatever the others do. -/
theorem runActions_settles {event : EventId} {node : NodeId} {key : String}
    (haimed : c.aimed event node) (hbinds : a.Binds key node) {actions : List (Action κ)}
    (hactions : Action.model a.id key ∈ actions) :
    Triple (fun w => w.Tended note a pending c) (runActions handle event actions)
      (fun _ w => w.Tended note a pending (c.settle event)) fun w => w.Tended note a pending c := by
  induction actions with
  | nil => cases hactions
  | cons action rest ih =>
    rcases List.mem_cons.mp hactions with rfl | hrest
    · refine Triple.bind (runAction_settles hhandle haimed hbinds) fun _ => ?_
      exact (tends_runActions hhandle event rest pending _).weaken (fun _ h => h) (fun _ _ h => h)
        fun _ h => h.mono (c.extends_settle event)
    · exact Triple.bind (tends_runAction hhandle event action pending c) fun _ => ih hrest

/-! ## Events -/

/-- **A walk along a path.** -/
theorem tends_visit (document : DocumentId) (event : EventId) (path : List NodeId) :
    Tends note a (visit handle document event path) := by
  induction path with
  | nil => exact .pure _
  | cons node path ih =>
    unfold visit
    refine .bind (tends_readDocument _ _).discard fun _ => .get_bind fun w => ?_
    refine .bind (.modify fun pending c w h => ?_) fun _ => ?_
    · exact h.modifyEvent (fun _ => rfl) (fun _ => rfl) fun _ _ _ => .inl rfl
    · refine .bind (tends_runActions hhandle event _) fun _ => .get_bind fun w' => ?_
      split
      · exact .pure _
      · exact .bind ih fun _ => .pure _

omit hhandle in
/-- **A settled event** may be taken from its path. -/
theorem depart_tends {event : EventId} (hsettled : c.settled event) :
    Keeps (fun w => w.Tended note a pending c)
      (modify (·.modifyEvent event fun e => { e with current := none }) : Run κ σ Unit) :=
  .modify fun _ h => h.modifyEvent (fun _ => rfl) (fun _ => rfl) fun _ _ _ => .inr hsettled

/-- **Dispatching an event** that has settled. -/
theorem dispatch_tends (document : DocumentId) {event : EventId} (hsettled : c.settled event) :
    Keeps (fun w => w.Tended note a pending c) (dispatch handle document event) := by
  refine .get_bind fun w _ => .bind (tends_tell _ pending c) fun _ => .get_bind fun w' _ => ?_
  refine .bind (tends_visit hhandle document event _ pending c) fun _ => ?_
  exact .bind (depart_tends hsettled) fun _ => .pure _

/-- **A new event** is at no node, so there is nothing to settle. -/
theorem tends_fire (document : DocumentId) {e : Event} (hrest : e.current = none) :
    Tends note a (fire handle document e) := by
  refine fun pending c => Triple.get_bind fun w hw => ?_
  refine Triple.bind (Q := fun _ w' => w'.Tended note a pending (c.settle w.events.size))
    (Triple.modify ?_) fun _ => ?_
  · rintro _ rfl
    exact (hw.addEvent e).settle (.inl ⟨e, Array.getElem?_push_size, .inl hrest⟩)
  · have hdispatch : Keeps (fun w' => w'.Tended note a pending (c.settle w.events.size))
        (dispatch handle document w.events.size) :=
      dispatch_tends hhandle document (c.settled_settle w.events.size)
    exact Triple.weaken (hdispatch.bind fun _ => .pure _) (fun _ h => h)
      (fun _ _ h => h.mono (c.extends_settle _)) fun _ h => h.mono (c.extends_settle _)

theorem tends_click (document : DocumentId) (node : NodeId) :
    Tends note a (click handle document node) :=
  .bind (tends_fire hhandle document rfl) fun _ => .pure _

/-- **The node where an edit is carried to its key**, and the rest of the path. -/
theorem carry_settles {event : EventId} {node : NodeId} {key : String} (haimed : c.aimed event node)
    (hbinds : a.Binds key node) {actions : List (Action κ)} (hactions : Action.model a.id key ∈ actions)
    (document : DocumentId) (path : List NodeId) (ran : Nat) :
    Triple (fun w => w.Tended note a pending c) (do
        runActions handle event actions
        if ((← get).event event).stopped then Pure.pure ran
        else do
          let later ← visit handle document event path
          Pure.pure (ran + later))
      (fun _ w => w.Tended note a pending (c.settle event)) fun w => w.Tended note a pending c := by
  refine Triple.bind (runActions_settles hhandle haimed hbinds hactions) fun _ => ?_
  refine Triple.weaken (P := fun w => w.Tended note a pending (c.settle event))
    (E := fun w => w.Tended note a pending (c.settle event)) ?_ (fun _ h => h) (fun _ _ h => h)
    fun _ h => h.mono (c.extends_settle event)
  refine Tends.get_bind (fun w => ?_) pending _
  split
  · exact .pure _
  · exact .bind (tends_visit hhandle document event path) fun _ => .pure _

/-- **An edit that is dispatched again** in the document of the component settles on its way. -/
theorem dispatch_settles {document : DocumentId} {event : EventId} {e : Event} {key : String}
    (hplain : a.plain) (hdocument : document = a.charter.document) (htype : e.type = "input")
    (hbinds : a.Binds key e.target) {w : World κ σ} (hw : w.Tended note a pending c)
    (he : w.events[event]? = some e) :
    Triple (· = w) (dispatch handle document event) (fun _ w => w.Tended note a pending c)
      fun w => w.Tended note a pending c := by
  have hevent : w.event event = e := World.event_of_getElem? he
  have htold := hw.tell [.dispatching e.type e.target]
  have haimed := htold.aim he
  have hcarries : Action.model a.id key ∈
      ((w.document document).listenersFor e.target e.type).map (·.action) := by
    obtain ⟨t, ht, b, hb, hkind, hnode⟩ := hbinds.affected
    rw [htype, hdocument, ← hnode]
    exact hw.audited.listens hplain t ht key b hb hkind
  have hfewer := fun (v : World κ σ) (h : v.Tended note a pending (c.aim event e.target)) =>
    h.mono (c.extends_aim event e.target)
  have hlater := fun (v : World κ σ)
      (h : v.Tended note a pending ((c.aim event e.target).settle event)) =>
    hfewer v (h.mono ((c.aim event e.target).extends_settle event))
  refine Triple.get_bind fun v hv => ?_
  subst hv
  rw [hevent]
  refine Triple.bind (Q := fun _ v' => v' = v.tell [.dispatching e.type e.target])
    (Triple.modify fun _ hv => by rw [hv]) fun _ => Triple.get_bind fun v' hv => ?_
  subst hv
  refine Triple.bind (Q := fun _ w' => w'.Tended note a pending ((c.aim event e.target).settle event))
    ?_ fun _ => ?_
  · show Triple _ (visit handle document event (e.target :: _)) _ _
    unfold visit
    refine Triple.bind (Triple.weaken (keeps_readDocument (I := (· = v.tell [.dispatching e.type e.target]))
      document _).discard (fun _ h => h) (fun _ _ h => h) ?_) fun _ => Triple.get_bind fun v' hv => ?_
    · rintro _ rfl
      exact htold
    subst hv
    refine Triple.bind (Q := fun _ w' => w'.Tended note a pending (c.aim event e.target))
      (Triple.modify ?_) fun _ => ?_
    · rintro _ rfl
      exact haimed.modifyEvent (fun _ => rfl) (fun _ => rfl) fun _ _ _ => .inl rfl
    · refine (carry_settles hhandle (c.aimed_aim event e.target) hbinds ?_ document _ _).weaken
        (fun _ h => h) (fun _ _ h => h) hfewer
      show _ ∈ ((v.document document).listenersFor e.target (v.event event).type).map (·.action)
      rw [hevent]
      exact hcarries
  · exact Triple.weaken (Keeps.bind (depart_tends ((c.aim event e.target).settled_settle event))
      fun _ => .pure _) (fun _ h => h) (fun _ => hlater) hlater

/-- **Dispatching any event**, if that does not lead it astray or is noted. -/
theorem dispatch_noted {document : DocumentId} {event : EventId} {w : World κ σ}
    (hw : w.Tended note a pending c)
    (h : (∃ e, w.events[event]? = some e ∧ (e.current = none ∨ document = a.charter.document)) ∨
      a.astray w.host event) :
    Triple (· = w) (dispatch handle document event) (fun _ w => w.Tended note a pending c)
      fun w => w.Tended note a pending c := by
  by_cases hrest : (∃ e, w.events[event]? = some e ∧ (e.current = none ∨
      (e.type = "input" → a.plain → ∀ key, ¬ a.Binds key e.target))) ∨ a.astray w.host event
  · exact Triple.weaken ((dispatch_tends hhandle document (c.settled_settle event)).at_world
      (hw.settle hrest)) (fun _ h => h) (fun _ _ h => h.mono (c.extends_settle event))
        fun _ h => h.mono (c.extends_settle event)
  · obtain ⟨hway, hastray⟩ := not_or.mp hrest
    obtain ⟨e, he, hdocument⟩ := h.resolve_right hastray
    obtain ⟨hcurrent, hbound⟩ := not_or.mp fun h => hway ⟨e, he, h⟩
    by_contra hfails
    refine hbound fun htype hplain key hbinds => hfails ?_
    exact dispatch_settles hhandle hplain (hdocument.resolve_left hcurrent) htype hbinds hw he

/-- **The event of an edit** at a node that is bound to a key. When its listeners there have run, the key
has the value. -/
theorem fire_assigned {document : DocumentId} {key : String} {node : NodeId} :
    Triple (fun w => w.Assigned note a pending c document key node)
      (fire handle document (.fresh "input" node true)) (fun _ w => w.Tended note a pending c)
      fun w => w.Tended note a pending c := by
  refine fire_steps fun w hw => ?_
  have hevent : ((w.addEvent (.fresh "input" node true)).event w.events.size) =
      .fresh "input" node true := World.event_of_getElem? Array.getElem?_push_size
  have hbegin := hw.begin [.dispatching "input" node]
  obtain ⟨n, hn⟩ := (w.document document).exists_node hw.node_lt
  have hnode : (w.document document).node node = .ok n :=
    ((w.document document).node_eq_ok_iff).mpr hn
  show Triple (· = (w.addEvent (.fresh "input" node true)).tell [.dispatching "input" node])
    (visit handle document w.events.size (node :: (w.document document).ancestors node)) _ _
  generalize hv : (w.addEvent (.fresh "input" node true)).tell [.dispatching "input" node] = v
    at hbegin
  have hdocument : v.document document = w.document document := hv ▸ rfl
  have htype : (v.event w.events.size).type = "input" := by
    subst hv
    exact congrArg Event.type hevent
  generalize w.events.size = event at hbegin htype
  have hfewer := fun (v : World κ σ) (h : v.Tended note a pending (c.aim event node)) =>
    h.mono (c.extends_aim event node)
  have hlater := fun (v : World κ σ) (h : v.Tended note a pending ((c.aim event node).settle event)) =>
    hfewer v (h.mono ((c.aim event node).extends_settle event))
  unfold visit
  refine Triple.bind (Q := fun _ v' => v' = v) (Triple.discard (Q := fun _ v' => v' = v) ?_
    fun _ _ h => h) fun _ => Triple.get_bind fun v' he => ?_
  · rintro _ rfl
    rw [readDocument_ok _ (hdocument ▸ hnode)]
    rfl
  subst he
  refine Triple.bind (Q := fun _ v => v.Tended note a pending (c.aim event node))
    (Triple.modify ?_) fun _ => ?_
  · rintro _ rfl
    exact hbegin
  rw [htype, hdocument]
  refine (carry_settles hhandle (c.aimed_aim event node) hw.binds hw.carries document _ _).weaken
    (fun _ h => h) (fun _ v h => ?_) hfewer
  exact hlater _ (depart_tends ((c.aim event node).settled_settle event) v h)

omit hhandle in
/-- Assigning a live value; a node that is not there is a fault, and nothing is changed. -/
theorem setValue_triple {P Q : World κ σ → Prop} {document : DocumentId} {node : NodeId}
    {value : String} (h : ∀ w d, P w → Grows (w.document document) d →
      (w.document document).Revises node
        (Dom.Content.mapElement fun e => { e with value := some value }) d →
          Q (w.setDocument document d)) :
    Triple P (editDocument document (·.setValue node value)) (fun _ => Q) P := by
  refine editDocument_spec fun w hw => ?_
  rcases Nat.lt_or_ge node (w.document document).size with hlt | hge
  · obtain ⟨changed, d, hset, hrevises⟩ := Document.setValue_spec hlt value
    rw [hset]
    exact h w d hw (.setValue hset) hrevises
  · have herror := ((w.document document).node_eq_error_iff).mpr ⟨hge, rfl⟩
    unfold Document.setValue
    rw [herror]
    exact hw

/-- **An edit by a person**, of any node. -/
theorem tends_edit (document : DocumentId) (node : NodeId) (value : String) :
    Tends note a (edit handle document node value) := by
  intro pending c
  by_cases hbound : a.plain ∧ document = a.charter.document ∧ ∃ key, a.Binds key node
  · obtain ⟨hplain, hdocument, key, hbinds⟩ := hbound
    refine Triple.bind (Q := fun _ w => w.Assigned note a pending c document key node)
      (Triple.discard (setValue_triple fun w d hw hgrows hrevises => ?_) fun _ _ h => h) fun _ => ?_
    · exact hw.assignBound hgrows hrevises hplain hdocument hbinds
    · exact Triple.bind (fire_assigned hhandle) fun _ => Tends.pure _ pending c
  · refine Triple.bind (Q := fun _ w => w.Tended note a pending c)
      (Triple.discard (setValue_triple fun w d hw hgrows hrevises => ?_) fun _ _ h => h) fun _ => ?_
    · exact hw.assignFree hgrows hrevises fun hplain hdocument key hbinds =>
        hbound ⟨hplain, hdocument, key, hbinds⟩
    · exact Triple.bind (tends_fire hhandle document rfl pending c) fun _ => Tends.pure _ pending c

/-! ## Other components -/

theorem tends_runHook {id : ComponentId} (hid : a.id ≠ id) (hook : Option κ) :
    Tends note a (runHook handle id hook) := by
  cases hook with
  | none => exact .pure _
  | some run => exact hhandle run (.hook id) fun he => hid (Occasion.hook.inj he).symm

omit hhandle in
/-- **Rendering another component**, also where it fails half-way. -/
theorem tends_renderComponent {id : ComponentId} (hid : a.id ≠ id) {t : Template} (hbare : t.Bare) :
    Tends note a (renderComponent id t : Run κ σ Unit) := by
  refine .bind (tends_tell _) fun _ => fun pending c => Triple.get_bind fun w hw => ?_
  dsimp only
  have hgrows := t.grows_mount (w.renderContext id) (w.document (w.component id).document)
    (w.component id).root
  have hhoused := t.housed_mount (w.renderContext id) (w.document (w.component id).document)
    (w.component id).root hbare
  have hnew := fun (node : NodeId) (hnode : node ∈ _) => t.le_of_mem_handles_mount
    (w.renderContext id) (w.document (w.component id).document) (w.component id).root hbare hnode
  have hretains := Template.retains_mount (w.renderContext id)
    (w.document (w.component id).document) (w.component id).root t
  generalize t.mount (w.renderContext id) (w.document (w.component id).document)
    (w.component id).root = rendered at hgrows hhoused hnew hretains ⊢
  refine Triple.bind (Q := fun _ w' => w' = w.setDocument (w.component id).document rendered.document)
    (Triple.modify fun _ he => by rw [he]) fun _ => ?_
  refine Triple.bind (Q := fun _ w => w.Tended note a pending c) (Triple.modify ?_) fun _ => ?_
  · rintro _ rfl
    have hset := hw.retain hgrows fun _ => hretains
    exact hset.edit (hw.orderly.render hgrows hhoused hnew) rfl rfl (hset.audited.modifyOther hid _)
  refine Triple.bind (tends_tell _ pending c) fun _ => ?_
  cases rendered.fault with
  | some f => exact Tends.throw _ pending c
  | none => exact Tends.pure _ pending c

theorem tends_bringUp {id : ComponentId} (hid : a.id ≠ id) (config : Config κ) :
    Tends note a (bringUp handle id config) := by
  refine .bind (tends_runHook hhandle hid config.created) fun _ => ?_
  refine .bind (tends_tell _) fun _ => .get_bind fun w => .get_bind fun w' => ?_
  dsimp only
  split
  · exact .pure _
  · refine .bind (tends_renderComponent hid (Template.bare_ofContents _)) fun _ => ?_
    refine .bind (tends_runHook hhandle hid config.mounted) fun _ => ?_
    exact .bind (tends_tell _) fun _ => .pure _

/-- **Making a component** on a document that is there. -/
theorem mount_tends (document : DocumentId) (config : Config κ) :
    Triple (fun w => w.Tended note a pending c ∧ document < w.documents.size)
      (mount handle document config) (fun _ w => w.Tended note a pending c)
      fun w => w.Tended note a pending c := by
  unfold mount
  refine Triple.bind (Q := fun _ w => w.Tended note a pending c ∧ document < w.documents.size)
    (Triple.modify fun _ h => ⟨h.1.tell _, h.2⟩) fun _ => ?_
  cases Selector.parse config.el with
  | error e => exact (Tends.pure _ pending c).pre fun _ h => h.1
  | ok selector =>
    refine Triple.get_bind fun w hw => ?_
    cases selector.query (w.document document) with
    | none => exact (Tends.pure _ pending c).at_world hw.1
    | some root =>
      refine Triple.get_bind fun w' he => ?_
      subst he
      have hid : a.id ≠ w'.components.size := Nat.ne_of_lt hw.1.audited.there
      refine Triple.bind (Q := fun _ w => w.Tended note a pending c) (Triple.modify ?_) fun _ => ?_
      · rintro _ rfl
        exact hw.1.addComponent hw.2 root config
      refine Triple.tryCatch (Triple.bind (tends_bringUp hhandle hid config pending c)
        fun result => ?_) fun f => ?_
      · cases result with
        | ok _ => exact Tends.pure _ pending c
        | error e =>
          exact Tends.bind (.modify fun _ _ _ h => h.releaseComponent _) (fun _ => .pure _) pending c
      · exact Tends.bind (.modify fun _ _ _ h => h.releaseComponent _) (fun _ => .throw f) pending c

omit hhandle in
/-- A new document from markup is there. -/
theorem parseDocument_tends (source : String) :
    Triple (fun w => w.Tended note a pending c) (parseDocument source : Run κ σ _)
      (fun result w => w.Tended note a pending c ∧ ∀ id, result = .ok id → id < w.documents.size)
      fun w => w.Tended note a pending c := by
  refine Triple.bind (tends_tell _ pending c) fun _ => ?_
  cases (Document.parse source : Except Markup.Error (Document (Action κ))) with
  | error e => exact Triple.pure fun w h => ⟨h, fun id hid => by cases hid⟩
  | ok d =>
    refine Triple.get_bind fun w hw => ?_
    refine Triple.bind (Q := fun _ w' => w' = { w with documents := w.documents.push d })
      (Triple.modify fun _ he => by rw [he]) fun _ => Triple.pure ?_
    rintro _ rfl
    refine ⟨hw.pushDocument d, fun id hid => ?_⟩
    cases hid
    exact Nat.lt_of_lt_of_eq (Nat.lt_succ_self _) (Array.size_push _).symm

/-- **Making a component** on a new document. -/
theorem tends_mountMarkup (source : String) (config : Config κ) :
    Tends note a (mountMarkup handle source config) := by
  refine fun pending c => Triple.bind (parseDocument_tends source) fun result => ?_
  cases result with
  | error e => exact (Tends.pure _ pending c).pre fun _ h => h.1
  | ok document =>
    exact ((mount_tends hhandle document config).pre fun _ h => ⟨h.1, h.2 _ rfl⟩).map
      fun _ _ h => h

end

end Run

end BoundView
