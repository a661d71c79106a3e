import BoundView.Proofs.Component.Program
import BoundView.Proofs.Component.Upkeep

/-!
# Whatever user code does

User code makes documents, components, cells and stores, as many as it likes, edits documents in every
way there is, renders and patches templates by itself, writes, subscribes, dispatches events, and keeps
and drops what it has made. Its **conduct** is a tree of such demands, where each may depend on all that
the code has seen of the world and on whether earlier demands failed. Handlers have a conduct as well,
and a demand runs the handlers that it reaches; how deep they are nested is bounded only by a number
that is given beforehand.

A diary is kept of all worlds that user code finds: those in which handlers are entered, and those in
which a demand returns to whoever made it.

Main statement: `orderly_throughout`, all of these worlds are orderly.
-/

namespace BoundView

open BoundView.Dom (Document NodeId)
open BoundView.Interpolation (Lookup MissingKey)

/-! ## Demands -/

/-- **What user code may ask for.** -/
inductive Demand (κ : Type) where
  | makeDocument
  | parseDocument (source : String)
  | edit (document : DocumentId) (operation : Dom.Operation (Action κ))
  /-- Renders a template by itself, at the end of a node's children or in their place. -/
  | render (document : DocumentId) (t : Template) (context : RenderContext (Action κ)) (node : NodeId)
      (replace : Bool)
  /-- Patches a template by itself. -/
  | patch (document : DocumentId) (t : Template) (lookup : Lookup) (missing : MissingKey)
      (key : String) (inputs : Bool)
  | makeCell (value : Value)
  | setCell (cell : CellId) (value : Value)
  | makeStore (data : List (String × Value))
  | subscribeCell (cell : CellId) (run : κ)
  | mount (document : DocumentId) (config : Config κ)
  | mountMarkup (source : String) (config : Config κ)
  | hold (component : ComponentId)
  | drop (component : ComponentId)
  | write (component : ComponentId) (key : String) (value : Value)
  | update (component : ComponentId) (key : String)
  | call (component : ComponentId) (name : String) (event : EventId)
  | subscribe (component : ComponentId) (key : String) (run : κ)
  | unsubscribe (subscriber : SubscriberId)
  | makeEvent (event : Event)
  | stop (event : EventId)
  | dispatch (document : DocumentId) (event : EventId)
  | click (document : DocumentId) (node : NodeId)
  | input (document : DocumentId) (node : NodeId) (value : String)

/-- **What user code does.** -/
inductive Conduct (κ σ : Type) where
  | done
  | fail (fault : Fault)
  | look (next : World κ σ → Conduct κ σ)
  | note (change : σ → σ) (next : Conduct κ σ)
  /-- The code goes on when the demand has been met, or with the fault that kept it from being met. -/
  | ask (demand : Demand κ) (next : Option Fault → Conduct κ σ)

/-- **What handlers do**, by their names and by what they are run for. -/
abbrev Customs (κ σ : Type) := κ → Occasion → Conduct κ σ

section

variable {κ σ : Type}

/-- **Meeting a demand.** What a demand speaks of has to be there, and a component that it calls or
holds has to be alive: user code has no other way to speak of them. It can let go of its own
subscribers, which run handlers. -/
def Demand.perform (handle : Handle κ σ) : Demand κ → Run κ σ Unit
  | .makeDocument => modify fun w => { w with documents := w.documents.push .empty }
  | .parseDocument source => discard (Run.parseDocument source)
  | .edit document operation =>
    modify fun w => w.setDocument document ((w.document document).perform operation)
  | .render document t context node replace =>
    modify fun w =>
      let d := w.document document
      w.setDocument document
        (if replace then t.mount context d node else t.materialize context d node).document
  | .patch document t lookup missing key inputs =>
    modify fun w => w.setDocument document
      (BoundView.patch lookup missing (w.document document) (t.affected key inputs)).document
  | .makeCell value => modify (·.addCell value)
  | .setCell cell value => Run.set handle cell value
  | .makeStore data => modify fun w => (w.makeStore data).2
  | .subscribeCell cell run => do
    if cell < (← get).cells.size then discard (Run.subscribe cell (.handler run))
  | .mount document config => do
    if document < (← get).documents.size then discard (Run.mount handle document config)
  | .mountMarkup source config => discard (Run.mountMarkup handle source config)
  | .hold component => do
    if (← get).isAlive component then modify (·.holdComponent component)
  | .drop component => modify (·.releaseComponent component)
  | .write component key value => discard (Run.write handle component key value)
  | .update component key => discard (Run.refresh component key)
  | .call component name event => do
    if (← get).isAlive component then discard (Run.call handle component name event)
  | .subscribe component key run => do
    discard (Run.subscribeKey ((← get).component component).store key (.handler run))
  | .unsubscribe s => do
    match (← get).reaction? s with
    | some (.handler _) => modify (·.releaseSubscriber s)
    | _ => pure ()
  | .makeEvent event => modify (·.addEvent event)
  | .stop event => modify (·.modifyEvent event fun e => { e with stopped := true })
  | .dispatch document event => discard (Run.dispatch handle document event)
  | .click document node => discard (Run.click handle document node)
  | .input document node value => discard (Run.edit handle document node value)

/-- A computation whose fault is its answer. -/
def Run.caught (m : Run κ σ Unit) : Run κ σ (Option Fault) := do
  try
    m
    pure none
  catch f => pure (some f)

/-- **Runs a conduct**, given how to run the handlers that its demands reach. -/
def Conduct.run (handle : Handle κ (Diary κ σ)) : Conduct κ σ → Run κ (Diary κ σ) Unit
  | .done => pure ()
  | .fail f => throw f
  | .look next => do run handle (next (← get).seen)
  | .note change next => do
    modify (·.modifyHost fun diary => { diary with own := change diary.own })
    run handle next
  | .ask demand next => do
    let fault ← Run.caught (demand.perform handle)
    modify World.noteReturn
    run handle (next fault)

/-- **Runs handlers**, nested up to a given depth. -/
def Customs.handle (customs : Customs κ σ) : Nat → Handle κ (Diary κ σ)
  | 0 => fun _ _ => throw .exhausted
  | depth + 1 => fun run occasion => do
    modify World.noteEntry
    (customs run occasion).run (customs.handle depth)

/-- **The diary of a conduct** that begins with nothing, however it ends. -/
def Customs.diary (customs : Customs κ σ) (depth : Nat) (conduct : Conduct κ σ) (own : σ) :
    Diary κ σ :=
  match conduct.run (customs.handle depth) (World.ofHost ⟨own, [], []⟩) with
  | .ok _ w => w.host
  | .error _ w => w.host

/-- **The worlds that user code finds.** -/
def Diary.worlds (diary : Diary κ σ) : List (World κ σ) := diary.entered ++ diary.returned

end

/-! ## All of these worlds are orderly -/

open BoundView.World (Orderly)

variable {κ σ : Type}

theorem World.Orderly.seen {note : Diary κ σ → Prop} {pending : SubscriberId → Nat}
    {unwatched : List (ComponentId × String)} {w : World κ (Diary κ σ)}
    (h : w.Orderly note pending unwatched) : w.seen.Orderly (fun _ => True) pending unwatched :=
  { h with noted := trivial }

/-- **A world in which there is nothing** is orderly. -/
theorem World.orderly_ofHost {note : σ → Prop} {host : σ} (h : note host) :
    (World.ofHost host : World κ σ).Orderly note (fun _ => 0) [] := by
  have hstore : ∀ id key, ((World.ofHost host : World κ σ).component id).store.cell? key = none := by
    intro id key
    rw [World.component_of_size_le (Nat.zero_le id)]
    rfl
  have htemplate : ∀ id, ((World.ofHost host : World κ σ).component id).template = none := by
    intro id
    rw [World.component_of_size_le (Nat.zero_le id)]
    rfl
  have hcell : ∀ id, (World.ofHost host : World κ σ).cell id = default :=
    fun id => World.cell_of_size_le (Nat.zero_le id)
  have hreaction : ∀ s, (World.ofHost host : World κ σ).reaction? s = none :=
    fun s => World.reaction?_of_size_le (Nat.zero_le s)
  refine ⟨h, fun id hid => absurd hid (Nat.not_lt_zero id), ?cell_lt, ?separate, ?nodup, ?there, ?tuned,
    ?single, ?patched_lt, ?watched, ?unheard, ?waiting, ?held, ?watchers, ?housed, ?apart⟩
  case cell_lt => exact fun id key cell hkey => absurd ((hstore id key).symm.trans hkey) (by simp)
  case separate => exact fun id key _ _ cell hkey => absurd ((hstore id key).symm.trans hkey) (by simp)
  case nodup =>
    intro cell
    rw [hcell]
    exact List.nodup_nil
  case there =>
    intro cell s hs
    rw [hcell] at hs
    cases hs
  case tuned =>
    intro cell s hs
    rw [hcell] at hs
    cases hs
  case single => exact fun s _ _ _ hs => absurd ((hreaction s).symm.trans hs) (by simp)
  case patched_lt => exact fun s _ _ hs => absurd ((hreaction s).symm.trans hs) (by simp)
  case watched => exact fun id key cell _ hkey => absurd ((hstore id key).symm.trans hkey) (by simp)
  case unheard => exact fun _ _ hmem => absurd hmem List.not_mem_nil
  case waiting => exact fun _ hpending => absurd hpending (Nat.lt_irrefl 0)
  case held => exact fun s _ _ _ hs => absurd ((hreaction s).symm.trans hs) (by simp)
  case watchers =>
    intro id s hs
    rw [World.component_of_size_le (Nat.zero_le id)] at hs
    cases hs
  case housed => exact fun id t ht => absurd ((htemplate id).symm.trans ht) (by simp)
  case apart => exact fun id _ t _ _ ht => absurd ((htemplate id).symm.trans ht) (by simp)

namespace Diary

/-- **All worlds that user code has found are orderly.** -/
def Orderly (diary : Diary κ σ) : Prop :=
  ∀ w ∈ diary.worlds, ∃ pending, w.Orderly (fun _ => True) pending []

theorem Orderly.noteEntry {w : World κ (Diary κ σ)} {pending : SubscriberId → Nat}
    (h : w.Orderly Orderly pending []) : w.noteEntry.Orderly Orderly pending [] := by
  refine h.modifyHost _ fun hnoted v hv => ?_
  rcases List.mem_append.mp hv with hentered | hreturned
  · rcases List.mem_append.mp hentered with hold | hnew
    · exact hnoted v (List.mem_append_left _ hold)
    · rw [List.mem_singleton.mp hnew]
      exact ⟨pending, h.seen⟩
  · exact hnoted v (List.mem_append_right _ hreturned)

theorem Orderly.noteReturn {w : World κ (Diary κ σ)} {pending : SubscriberId → Nat}
    (h : w.Orderly Orderly pending []) : w.noteReturn.Orderly Orderly pending [] := by
  refine h.modifyHost _ fun hnoted v hv => ?_
  rcases List.mem_append.mp hv with hentered | hreturned
  · exact hnoted v (List.mem_append_left _ hentered)
  · rcases List.mem_append.mp hreturned with hold | hnew
    · exact hnoted v (List.mem_append_right _ hold)
    · rw [List.mem_singleton.mp hnew]
      exact ⟨pending, h.seen⟩

end Diary

namespace Run

variable {note : σ → Prop}

theorem Upholds.caught {m : Run κ σ Unit} (hm : Upholds note m) : Upholds note (caught m) :=
  fun pending => Triple.tryCatch ((hm pending).bind fun _ => Upholds.pure _ pending)
    fun _ => Upholds.pure _ pending

/-- **Every demand keeps the world orderly.** -/
theorem upholds_perform {handle : Handle κ σ}
    (hhandle : ∀ run occasion, Upholds note (handle run occasion)) (demand : Demand κ) :
    Upholds note (demand.perform handle) := by
  cases demand with
  | makeDocument => exact .modify fun _ _ h => h.pushDocument _
  | parseDocument source =>
    exact fun pending => (parseDocument_upholds pending source).discard fun _ _ h => h.1
  | edit document operation =>
    exact .modify fun _ _ h => h.setDocument (Document.grows_perform _ operation)
  | render document t context node replace =>
    refine .modify fun _ _ h => h.setDocument ?_
    split
    · exact t.grows_mount context _ node
    · exact t.grows_materialize context _ node
  | patch document t lookup missing key inputs =>
    exact .modify fun _ _ h => h.setDocument (Template.grows_patch _ _ _ _)
  | makeCell value => exact .modify fun _ _ h => h.addCell value
  | setCell cell value => exact upholds_set hhandle cell value
  | makeStore data =>
    exact .modify fun pending w h => (w.founded_makeStore data).orderly note pending [] h
  | subscribeCell cell run =>
    refine fun pending => Triple.get_bind fun w hw => ?_
    split
    · rename_i hlt
      exact ((subscribe_upholds pending cell run).discard fun _ _ h => h).at_world ⟨hw, hlt⟩
    · exact (Upholds.pure _ pending).at_world hw
  | mount document config =>
    refine fun pending => Triple.get_bind fun w hw => ?_
    split
    · rename_i hlt
      exact ((mount_upholds hhandle pending document config).discard fun _ _ h => h).at_world
        ⟨hw, hlt⟩
    · exact (Upholds.pure _ pending).at_world hw
  | mountMarkup source config => exact (upholds_mountMarkup hhandle source config).discard
  | hold component =>
    refine fun pending => Triple.get_bind fun w hw => ?_
    split
    · rename_i halive
      refine Triple.modify ?_
      rintro _ rfl
      exact hw.holdComponent halive
    · exact (Upholds.pure _ pending).at_world hw
  | drop component => exact .modify fun _ _ h => h.releaseComponent component
  | write component key value => exact (upholds_write hhandle component key value).discard
  | update component key => exact (upholds_refresh component key).discard
  | call component name event =>
    refine fun pending => Triple.get_bind fun w hw => ?_
    split
    · rename_i halive
      exact ((call_upholds hhandle pending component name event).discard fun _ _ h => h).at_world
        ⟨hw, halive⟩
    · exact (Upholds.pure _ pending).at_world hw
  | subscribe component key run => exact (upholds_subscribeKey component key run).discard
  | unsubscribe s =>
    refine fun pending => Triple.get_bind fun w hw => ?_
    split
    · rename_i run hrun
      refine Triple.modify ?_
      rintro _ rfl
      refine hw.releaseSubscriber fun id key hs => ?_
      rw [hrun] at hs
      cases hs
    · exact (Upholds.pure _ pending).at_world hw
  | makeEvent event => exact .modify fun _ _ h => h.addEvent event
  | stop event => exact .modify fun _ _ h => h.modifyEvent event _
  | dispatch document event => exact (upholds_dispatch hhandle document event).discard
  | click document node => exact (upholds_click hhandle document node).discard
  | input document node value => exact (upholds_edit hhandle document node value).discard

/-- **Every conduct keeps the world and the diary orderly.** -/
theorem upholds_run {handle : Handle κ (Diary κ σ)}
    (hhandle : ∀ run occasion, Upholds Diary.Orderly (handle run occasion)) (conduct : Conduct κ σ) :
    Upholds Diary.Orderly (conduct.run handle) := by
  induction conduct with
  | done => exact .pure _
  | fail f => exact .throw f
  | look next ih => exact .get_bind fun w => ih w.seen
  | note change next ih =>
    exact .bind (.modify fun _ _ h => h.modifyHost _ fun hnoted => hnoted) fun _ => ih
  | ask demand next ih =>
    refine .bind (upholds_perform hhandle demand).caught fun fault => ?_
    exact .bind (.modify fun _ _ h => Diary.Orderly.noteReturn h) fun _ => ih fault

/-- **Running handlers** does so at every depth. -/
theorem upholds_handle (customs : Customs κ σ) (depth : Nat) (run : κ) (occasion : Occasion) :
    Upholds Diary.Orderly (customs.handle depth run occasion) := by
  induction depth generalizing run occasion with
  | zero => exact .throw _
  | succ depth ih =>
    exact .bind (.modify fun _ _ h => Diary.Orderly.noteEntry h) fun _ => upholds_run ih _

end Run

/-- **Every world that user code finds is orderly**, whatever the code and its handlers do. -/
theorem orderly_throughout (customs : Customs κ σ) (depth : Nat) (conduct : Conduct κ σ) (own : σ) :
    (customs.diary depth conduct own).Orderly := by
  have hempty : (⟨own, [], []⟩ : Diary κ σ).Orderly := fun w hw => absurd hw List.not_mem_nil
  have hrun := Run.upholds_run (Run.upholds_handle customs depth) conduct _ _
    (World.orderly_ofHost hempty)
  unfold Customs.diary
  cases hresult : conduct.run (customs.handle depth) (World.ofHost ⟨own, [], []⟩) with
  | ok a w =>
    rw [hresult] at hrun
    exact hrun.noted
  | error f w =>
    rw [hresult] at hrun
    exact hrun.noted

end BoundView
