import BoundView.Proofs.Component.Conduct

/-!
# A write touches only what depends on its key

In an orderly world a key of a living component has one watcher, and if no subscriber of user code
hears the key, a write has a round of just this one turn. The turn brings the component's rendered nodes
up to date for the key, which touches only the nodes that depend on it; and since no two components
share a cell or a rendered node, nothing that another component has is touched, also where many
components share a document, and wherever the nodes have been moved meanwhile.

Main statement: `write_touches`.
-/

namespace BoundView

open BoundView.World (Orderly)

variable {κ σ : Type} {w : World κ σ}

/-- **No living subscriber of a cell runs a handler.** -/
def World.Quiet (w : World κ σ) (cell : CellId) : Prop :=
  ∀ s ∈ (w.cell cell).subscribers, w.isLive s = true → ∀ run, w.reaction? s ≠ some (.handler run)

/-- **What a write to a key of a component does to the world**, traces aside. -/
structure Touched (w : World κ σ) (id : ComponentId) (t : Template) (key : String) (cell : CellId)
    (value : Value) (w' : World κ σ) : Prop where
  events : w'.events = w.events
  host : w'.host = w.host
  subscribers : w'.subscribers = w.subscribers
  /-- The cell of the key has the value and has counted the write; dead subscribers are dropped. -/
  written : w'.cell cell =
    ⟨value, (w.cell cell).version + 1, (w.cell cell).subscribers.filter w.isLive⟩
  cells : w'.cells.size = w.cells.size ∧ ∀ other, other ≠ cell → w'.cell other = w.cell other
  /-- The key has the value, and all other keys have theirs, in this store and in all others. -/
  values : w'.value? (w.component id).store =
    overwritten (w.value? (w.component id).store) key value
  strangers : ∀ other, other ≠ id →
    w'.value? (w.component other).store = w.value? (w.component other).store
  /-- The component has counted the scan, and its template has the same handles. -/
  component : w'.component id = { w.component id with scans := (w.component id).scans + 1 }
  components : w'.components.size = w.components.size ∧
    ∀ other, other ≠ id → w'.component other = w.component other
  /-- In the document of the component only those nodes are touched that depend on the key. -/
  document : t.Touches key (w.component id).options.syncInputs
    (w'.lookup (w.component id).store) (w.component id).options.missingKey value.text
    (w.document (w.component id).document) (w'.document (w.component id).document)
  documents : w'.documents.size = w.documents.size ∧
    ∀ other, other ≠ (w.component id).document → w'.document other = w.document other
  /-- What other components have rendered holds what it held. -/
  apart : ∀ other t', other ≠ id → (w.component other).template = some t' → ∀ node ∈ t'.handles,
    (w'.document (w.component other).document).content node =
      (w.document (w.component other).document).content node

/-! ## The round of a quiet key -/

theorem eq_singleton_of_nodup {α : Type} {l : List α} (hnodup : l.Nodup) {a : α} (ha : a ∈ l)
    (hall : ∀ b ∈ l, b = a) : l = [a] := by
  cases l with
  | nil => cases ha
  | cons b l =>
    obtain rfl := hall b List.mem_cons_self
    cases l with
    | nil => rfl
    | cons c l =>
      have hc := hall c (List.mem_cons_of_mem _ List.mem_cons_self)
      exact absurd (hc ▸ List.mem_cons_self) (List.nodup_cons.mp hnodup).1

namespace World.Orderly

variable {note : σ → Prop} {pending : SubscriberId → Nat} {id : ComponentId} {key : String}
  {cell : CellId}

/-- **Only the watcher of a quiet key is alive** to hear it. -/
theorem exists_watcher (h : w.Orderly note pending []) (halive : w.isAlive id = true)
    (hcell : (w.component id).store.cell? key = some cell) (hquiet : w.Quiet cell) :
    ∃ s, w.reaction? s = some (.patch id key) ∧
      (w.cell cell).subscribers.filter w.isLive = [s] := by
  obtain ⟨s, hs, hreaction⟩ := h.watched id key cell halive hcell List.not_mem_nil
  have hlive : w.isLive s = true :=
    decide_eq_true (Nat.lt_of_le_of_lt (Nat.zero_le _) (h.held s id key halive hreaction))
  refine ⟨s, hreaction, eq_singleton_of_nodup ((h.nodup cell).filter _)
    (List.mem_filter.mpr ⟨hs, hlive⟩) fun r hr => ?_⟩
  obtain ⟨hr, hrlive⟩ := List.mem_filter.mp hr
  obtain ⟨reaction, hrreaction⟩ := Option.isSome_iff_exists.mp (h.there cell r hr)
  cases reaction with
  | handler run => exact absurd hrreaction (hquiet r hr hrlive run)
  | patch other key' =>
    obtain ⟨rfl, rfl⟩ := h.separate id key other key' cell hcell
      (h.tuned cell r hr other key' hrreaction)
    exact h.single s r _ _ hreaction hrreaction

end World.Orderly

/-! ## What the write leaves -/

namespace World

/-- The world after a component was brought up to date for a key, traces aside. -/
def refreshed (w : World κ σ) (id : ComponentId) (t : Template) (key : String) : World κ σ :=
  (w.modifyComponent id fun c => { c with scans := c.scans + 1 }).setDocument
    (w.component id).document (w.patched (w.component id) t key).document

theorem document_refreshed_of_ne {id : ComponentId} {t : Template} {key : String}
    {other : DocumentId} (hne : other ≠ (w.component id).document) :
    (w.refreshed id t key).document other = w.document other := document_setDocument_of_ne hne _

/-- A subscriber that was held and let go is held as before. -/
theorem releaseSubscriber_holdSubscriber (w : World κ σ) (s : SubscriberId) :
    (w.holdSubscriber s).releaseSubscriber s = w := by
  have hsubscribers : ((w.holdSubscriber s).releaseSubscriber s).subscribers = w.subscribers := by
    refine Array.ext_getElem? fun r => ?_
    unfold releaseSubscriber holdSubscriber
    rw [getElem?_modifyHolders, getElem?_modifyHolders]
    split
    · cases w.subscribers[r]? <;> rfl
    · rfl
  show { w with subscribers := ((w.holdSubscriber s).releaseSubscriber s).subscribers } = w
  rw [hsubscribers]

end World

namespace Run

variable {handle : Handle κ σ} {id : ComponentId} {key : String} {t : Template}

/-- **Bringing a key up to date** where the patch does not fail. -/
theorem refresh_eq (ht : (w.component id).template = some t)
    (hfault : (w.patched (w.component id) t key).fault = none) :
    Triple (· = w) (refresh id key)
      (fun _ w' => ∃ traces, w' = { w.refreshed id t key with traces }) fun _ => False := by
  have hstep : ∀ (w : World κ σ) (f : World κ σ → World κ σ),
      Triple (· = w) (modify f : Run κ σ Unit) (fun _ w' => w' = f w) fun _ => False :=
    fun w f => Triple.modify fun _ he => congrArg f he
  refine Triple.get_bind fun w₀ he => ?_
  subst he
  dsimp only
  rw [ht]
  refine Triple.bind (hstep _ _) fun _ => Triple.bind (hstep _ _) fun _ => ?_
  refine Triple.get_bind fun w₁ he => ?_
  subst he
  refine Triple.bind (hstep _ _) fun _ => Triple.bind (hstep _ _) fun _ => ?_
  split
  · rename_i f hsome
    exact absurd (hfault.symm.trans hsome) (Option.some_ne_none f).symm
  · refine Triple.bind (hstep _ _) fun _ => Triple.pure ?_
    rintro _ rfl
    exact ⟨_, rfl⟩

/-- **The watcher's turn**, and its end. -/
theorem notify_watcher {s : SubscriberId} (hs : w.reaction? s = some (.patch id key))
    (halive : w.isAlive id = true) (ht : (w.component id).template = some t)
    (hfault : (w.patched (w.component id) t key).fault = none) (value : Value) :
    Triple (· = w.holdSubscriber s) (notify (react handle · value) [s])
      (fun _ w' => ∃ traces, w' = { w.refreshed id t key with traces }) fun _ => False := by
  have hturn : Triple (· = w.holdSubscriber s) (react handle s value)
      (fun _ w' => ∃ traces, w' = { (w.holdSubscriber s).refreshed id t key with traces })
      fun _ => False := by
    refine Triple.get_bind fun w₀ he => ?_
    subst he
    rw [show ((w.holdSubscriber s).subscribers[s]?).map Subscriber.reaction = _ from
      (World.reaction?_modifyHolders w s s _).trans hs]
    refine Triple.get_bind fun w₁ he => ?_
    subst he
    rw [show (w.holdSubscriber s).isAlive id = true from halive, if_pos rfl]
    exact (refresh_eq (w := w.holdSubscriber s) ht hfault).discard fun _ _ h => h
  unfold notify
  refine Triple.bind (Triple.tryCatch hturn fun f => fun _ h => h.elim) fun _ => ?_
  refine Triple.bind (Q := fun _ w' => ∃ traces, w' = { w.refreshed id t key with traces })
    (Triple.modify ?_) fun _ => Triple.pure fun _ h => h
  rintro _ ⟨traces, rfl⟩
  have hrestored := congrArg World.subscribers (w.releaseSubscriber_holdSubscriber s)
  refine ⟨traces, ?_⟩
  show { w.refreshed id t key with
    traces, subscribers := ((w.holdSubscriber s).releaseSubscriber s).subscribers } = _
  rw [hrestored]
  rfl

end Run

open BoundView.World (refreshed)

variable {note : σ → Prop} {pending : SubscriberId → Nat} {id : ComponentId} {t : Template}
  {key : String} {cell : CellId}

theorem World.Orderly.separate_store (h : w.Orderly note pending []) (id : ComponentId) :
    (w.component id).store.Separate :=
  fun key key' cell hkey hkey' => (h.separate id key id key' cell hkey hkey').2

/-- **The nodes of a component's template**, once a value is stored, are patched and nothing else is. -/
theorem World.Orderly.touches (h : w.Orderly note pending [])
    (ht : (w.component id).template = some t)
    (hcell : (w.component id).store.cell? key = some cell) (value : Value) :
    ((w.storeValue cell value).patched (w.component id) t key).fault = none ∧
      t.Touches key (w.component id).options.syncInputs
        ((w.storeValue cell value).lookup (w.component id).store)
        (w.component id).options.missingKey value.text (w.document (w.component id).document)
        ((w.storeValue cell value).patched (w.component id) t key).document := by
  refine (h.housed id t ht).touches ?_ _ _
  show ((w.storeValue cell value).value? (w.component id).store key).map Value.text = _
  rw [World.value?_storeValue (h.separate_store id) hcell (h.cell_lt id key cell hcell)]
  unfold overwritten World.value?
  rw [if_pos rfl, hcell]
  rfl

/-- The component's document is the one that was patched. -/
theorem World.Orderly.document_refreshed (h : w.Orderly note pending [])
    (ht : (w.component id).template = some t) (cell : CellId) (value : Value) :
    ((w.storeValue cell value).refreshed id t key).document (w.component id).document =
      ((w.storeValue cell value).patched (w.component id) t key).document :=
  World.document_setDocument
    (w := (w.storeValue cell value).modifyComponent id fun c => { c with scans := c.scans + 1 })
    (h.document_lt id (World.lt_of_template ht)) _

/-- The keys of other components keep their values. -/
theorem World.Orderly.value?_strangers (h : w.Orderly note pending [])
    (hcell : (w.component id).store.cell? key = some cell) (value : Value) {other : ComponentId}
    (hne : other ≠ id) : (w.storeValue cell value).value? (w.component other).store =
      w.value? (w.component other).store := by
  funext key'
  unfold World.value?
  cases hcell' : (w.component other).store.cell? key' with
  | none => rfl
  | some cell' =>
    have hne' : cell' ≠ cell := by
      rintro rfl
      exact hne (h.separate id key other key' cell' hcell hcell').1
    rw [Option.map_some, Option.map_some, World.cell_storeValue (h.cell_lt id key cell hcell),
      if_neg hne']

/-- What another component has rendered is not what is patched, be it in the same document or not. -/
theorem World.Orderly.content_strangers (h : w.Orderly note pending [])
    (ht : (w.component id).template = some t)
    (hcell : (w.component id).store.cell? key = some cell) (value : Value) {other : ComponentId}
    {t' : Template} (hne : other ≠ id) (ht' : (w.component other).template = some t')
    {node : Dom.NodeId} (hnode : node ∈ t'.handles) :
    (((w.storeValue cell value).refreshed id t key).document
        (w.component other).document).content node =
      (w.document (w.component other).document).content node := by
  by_cases hsame : (w.component other).document = (w.component id).document
  · have hforeign : ∀ p ∈ t.preorder, p.rendered ≠ some node := fun p hp hrendered =>
      h.apart id other t t' hne ht ht' hsame (Template.mem_handles.mpr ⟨p, hp, hrendered⟩) hnode
    rw [hsame, h.document_refreshed ht]
    exact (h.touches ht hcell value).2.kept node (fun raw hp => absurd rfl (hforeign _ hp))
      fun _ tag attributes hp => absurd rfl (hforeign _ hp)
  · exact congrArg (·.content node)
      (World.document_refreshed_of_ne (w := w.storeValue cell value) hsame)

/-- **What is left touches only what depends on the key.** -/
theorem World.Orderly.touched (h : w.Orderly note pending [])
    (ht : (w.component id).template = some t)
    (hcell : (w.component id).store.cell? key = some cell) (value : Value) (traces : Array Trace) :
    Touched w id t key cell value
      { (w.storeValue cell value).refreshed id t key with traces } where
  events := rfl
  host := rfl
  subscribers := rfl
  written := (World.cell_storeValue (h.cell_lt id key cell hcell) value cell).trans (if_pos rfl)
  cells := ⟨World.size_cells_storeValue w cell value, fun other hne =>
    (World.cell_storeValue (h.cell_lt id key cell hcell) value other).trans (if_neg hne)⟩
  values := World.value?_storeValue (h.separate_store id) hcell (h.cell_lt id key cell hcell) value
  strangers other hne := h.value?_strangers hcell value hne
  component := World.component_modifyComponent_self (w := w.storeValue cell value)
    (World.lt_of_template ht) _
  components := ⟨Array.size_modify, fun other hne =>
    World.component_modifyComponent_of_ne (w := w.storeValue cell value) (World.lt_of_template ht)
      hne _⟩
  document := by
    show t.Touches _ _ _ _ _ _ (((w.storeValue cell value).refreshed id t key).document
      (w.component id).document)
    rw [h.document_refreshed ht]
    exact (h.touches ht hcell value).2
  documents := ⟨Array.size_setIfInBounds, fun other hne =>
    World.document_refreshed_of_ne (w := w.storeValue cell value) hne⟩
  apart other t' hne ht' node hnode := h.content_strangers ht hcell value hne ht' hnode

/-- **A write to a quiet key** of a living component in an orderly world. -/
theorem Run.write_touched (h : w.Orderly note pending []) (halive : w.isAlive id = true)
    (ht : (w.component id).template = some t)
    (hcell : (w.component id).store.cell? key = some cell) (hquiet : w.Quiet cell) (value : Value)
    (handle : Handle κ σ) :
    Run.Triple (· = w) (Run.write handle id key value)
      (fun result w' => result = .ok () ∧ Touched w id t key cell value w') fun _ => False := by
  obtain ⟨s, hs, hround⟩ := h.exists_watcher halive hcell hquiet
  have hlt := h.cell_lt id key cell hcell
  refine Triple.get_bind fun w₀ he => ?_
  subst he
  unfold setKey
  rw [hcell]
  refine Triple.bind (Q := fun _ w' => Touched w₀ id t key cell value w') ?_ fun _ =>
    Triple.pure fun _ hw => ⟨rfl, hw⟩
  refine Triple.bind (Q := fun _ w' => w' = w₀.storeValue cell value)
    (Triple.modify fun _ he => congrArg (World.storeValue · cell value) he) fun _ => ?_
  refine Triple.get_bind fun w₁ he => ?_
  subst he
  dsimp only
  rw [World.cell_storeValue hlt, if_pos rfl]
  dsimp only
  rw [hround]
  refine Triple.bind (Q := fun _ w' => w' = (w₀.storeValue cell value).holdSubscriber s)
    (Triple.modify fun _ he => congrArg (World.holdSubscriber · s) he) fun _ => ?_
  have hfault := (h.touches ht hcell value).1
  refine Triple.weaken (notify_watcher (w := w₀.storeValue cell value) hs halive ht hfault value)
    (fun _ h => h) ?_ fun _ h => h
  rintro _ w' ⟨traces, rfl⟩
  exact h.touched ht hcell value traces

/-- **A write touches only what depends on its key.** In every world that user code finds, for every
living component with a rendered template, every key and every value: a write to a key that is not
declared is refused and changes nothing; a write to a declared key that no living subscriber of user
code hears changes the value of the key, the texts with a marker for it, where bound inputs follow
writes the live values of the elements that are bound to it, and nothing else. -/
theorem write_touches (customs : Customs κ σ) (depth : Nat) (conduct : Conduct κ σ) (own : σ)
    {w : World κ σ} (hw : w ∈ (customs.diary depth conduct own).worlds) {id : ComponentId}
    {t : Template} (halive : w.isAlive id = true) (ht : (w.component id).template = some t)
    (key : String) (value : Value) (handle : Handle κ σ) :
    ((w.component id).store.cell? key = none →
      Run.write handle id key value w = .ok (.error (.undeclaredKey key)) w) ∧
    ∀ cell, (w.component id).store.cell? key = some cell → w.Quiet cell →
      ∃ w', Run.write handle id key value w = .ok (.ok ()) w' ∧
        Touched w id t key cell value w' := by
  obtain ⟨pending, h⟩ := orderly_throughout customs depth conduct own w hw
  constructor
  · intro hcell
    show (Run.setKey _ _ _ _) w = _
    unfold Run.setKey
    rw [hcell]
    rfl
  · intro cell hcell hquiet
    have hwrite := Run.write_touched h halive ht hcell hquiet value handle w rfl
    cases hresult : Run.write handle id key value w with
    | error f w' =>
      rw [hresult] at hwrite
      exact hwrite.elim
    | ok result w' =>
      rw [hresult] at hwrite
      obtain ⟨rfl, htouched⟩ := hwrite
      exact ⟨w', rfl, htouched⟩

/-- Two paragraphs that name the same key; one has an input that is bound to it. -/
def sharedPage : String := "<p id=a>{{ n }}<input v-model=n></p><p id=b>{{ n }}</p>"

/-- A component on one of them. -/
def sharer (el : String) : Config Unit where
  el := el
  data := [("n", .int 1)]
  methods := []
  created := none
  mounted := none
  options := {}

/-- Makes both components on one document. -/
def sharing : Conduct Unit Unit :=
  .ask (.parseDocument sharedPage) fun _ =>
    .ask (.mount 0 (sharer "#a")) fun _ => .ask (.mount 0 (sharer "#b")) fun _ => .done

theorem write_touches_shared :
    ∃ w ∈ (Customs.diary (fun _ _ => .done) 0 sharing ()).worlds, ∃ t cell,
      w.components.size = 2 ∧ (w.component 0).document = (w.component 1).document ∧
        w.isAlive 0 = true ∧ (w.component 0).template = some t ∧
          (w.component 0).store.cell? "n" = some cell ∧ w.Quiet cell ∧
            (∃ w', Run.write (fun _ _ => pure ()) 0 "n" (.int 2) w = .ok (.ok ()) w' ∧
              Touched w 0 t "n" cell (.int 2) w') ∧
              (w.component 0).store.cell? "m" = none ∧
                Run.write (fun _ _ => pure ()) 0 "m" (.int 2) w = .ok (.error (.undeclaredKey "m")) w := by
  have hfound : ((Customs.diary (fun _ _ => .done) 0 sharing ()).worlds[2]?).any (fun w =>
      decide (w.components.size = 2 ∧ (w.component 0).document = (w.component 1).document ∧
        w.isAlive 0 = true ∧ (w.component 0).template.isSome = true ∧
          (w.component 0).store.cell? "n" = some 0 ∧ (w.component 0).store.cell? "m" = none ∧
            (w.cell 0).subscribers = [0] ∧ w.reaction? 0 = some (.patch 0 "n"))) = true := by
    decide +kernel
  obtain ⟨w, hw, htest⟩ := (Option.any_eq_true _ _).mp hfound
  obtain ⟨hsize, hshared, halive, htemplate, hcell, hmissing, hheard, hreaction⟩ :=
    of_decide_eq_true htest
  obtain ⟨t, ht⟩ := Option.isSome_iff_exists.mp htemplate
  have hmem := List.mem_of_getElem? hw
  have hquiet : w.Quiet 0 := by
    intro s hs _ run
    rw [hheard] at hs
    rw [List.mem_singleton.mp hs, hreaction]
    intro he
    cases he
  have htouches := write_touches (fun _ _ => .done) 0 sharing () hmem halive ht
  exact ⟨w, hmem, t, 0, hsize, hshared, halive, ht, hcell, hquiet,
    (htouches "n" (.int 2) fun _ _ => pure ()).2 0 hcell hquiet, hmissing,
    (htouches "m" (.int 2) fun _ _ => pure ()).1 hmissing⟩

end BoundView
