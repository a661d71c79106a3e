import BoundView.Proofs.Component.Arriving

/-!
# Components that share a document do not disturb each other

Components are made on one document, no root containing another, and the user code of each keeps to its
own component. Then they stand side by side, whatever is asked of one is done within it and leaves the
others alone, and what comes of it depends on nothing of the others. So of any interleaving of demands on
them, each component keeps the same view as if only its own demands had been made, in the same order; in
particular demands on different components commute.

It would not be enough that no user code writes across: a subscriber that reads another component
carries what it has read into its own.

Main statements: `demands_isolated`; `nosy_subscriber`, a subscriber that looks at another component.
-/

namespace BoundView

open BoundView.Dom (Document NodeId)
open BoundView.World (Alike Twins)
open Relation (ReflTransGen)

variable {κ σ τ : Type}

/-! ## What is asked of a component, and what is seen of it -/

/-- The component that a demand is made on. -/
def Demand.component? : Demand κ → Option ComponentId
  | .write id _ _ | .update id _ | .call id _ _ | .hold id | .drop id | .subscribe id _ _ => some id
  | _ => none

/-- **Demands that are made one after the other**, each whatever became of those before. -/
def World.meeting (handle : Handle κ σ) (w : World κ σ) (demands : List (Demand κ)) : World κ σ :=
  demands.foldl (fun w demand => Run.left (demand.perform handle) w) w

/-- **A component is seen to be the same**: its keys and their values, its nodes and the markup of its
root, the live values of its nodes, and the count of its scans. -/
structure World.SameView (id : ComponentId) (w u : World κ σ) : Prop where
  store : (u.component id).store = (w.component id).store
  values : u.value? (u.component id).store = w.value? (w.component id).store
  nodes : ∀ node, u.Inside id node ↔ w.Inside id node
  markup : (u.page id).innerHtml (u.component id).root = (w.page id).innerHtml (w.component id).root
  live : ∀ node, w.Inside id node → (u.page id).value node = (w.page id).value node
  scans : (u.component id).scans = (w.component id).scans

/-- **A component whose user code keeps to it**, at the start of its life and in its methods. -/
structure Config.KeepsTo (config : Config κ) (division : Division κ σ τ) (customs : Customs κ σ)
    (id : ComponentId) : Prop where
  methods : ∀ entry ∈ config.methods, division.answers id entry.2
  hooks : ∀ run, config.created = some run ∨ config.mounted = some run →
    (customs run (.hook id)).KeepsTo division id

/-- **Components that have been made on one document** beside each other, and of which their own has been
demanded. What there was before the first of them may be anything. -/
inductive Housemates (customs : Customs κ σ) (division : Division κ σ τ) (depth : Nat)
    (document : DocumentId) : List ComponentId → World κ (Diary κ σ) → Prop where
  | nobody {w : World κ (Diary κ σ)} (hcoherent : (w.document document).Coherent) :
    Housemates customs division depth document [] w
  | mount {members : List ComponentId} {w w' : World κ (Diary κ σ)} {id : ComponentId}
    {config : Config κ} (before : Housemates customs division depth document members w)
    (made : Run.mount (customs.handle depth) document config w = .ok (.ok id) w')
    (keeps : config.KeepsTo division customs id)
    (beside : ∀ other ∈ members,
      (w'.document document).contains (w'.component other).root (w'.component id).root = .ok false ∧
        (w'.document document).contains (w'.component id).root (w'.component other).root = .ok false) :
    Housemates customs division depth document (id :: members) w'
  | demand {members : List ComponentId} {w : World κ (Diary κ σ)} {id : ComponentId}
    {demand : Demand κ} (before : Housemates customs division depth document members w)
    (member : id ∈ members) (own : demand.Own division id) :
    Housemates customs division depth document members
      (Run.left (demand.perform (customs.handle depth)) w)

variable {division : Division κ σ τ} {customs : Customs κ σ} {id other : ComponentId}
  {members : List ComponentId}

theorem Demand.Own.component? {demand : Demand κ} (h : demand.Own division id) :
    demand.component? = some id := by
  cases demand with
  | subscribe => exact congrArg some h.1
  | write | update | call | hold | drop => exact congrArg some h
  | makeDocument | parseDocument | edit | render | patch | makeCell | setCell | makeStore
  | subscribeCell | mount | mountMarkup | unsubscribe | makeEvent | stop | dispatch | click
  | input => exact h.elim

namespace World

variable {w u v : World κ σ} {ρ : SubscriberId → SubscriberId → Prop}

theorem SameView.symm (h : w.SameView id u) : u.SameView id w :=
  ⟨h.store.symm, h.values.symm, fun node => (h.nodes node).symm, h.markup.symm,
    fun node hnode => (h.live node ((h.nodes node).mp hnode)).symm, h.scans.symm⟩

theorem SameView.trans (h : w.SameView id u) (h' : u.SameView id v) : w.SameView id v :=
  ⟨h'.store.trans h.store, h'.values.trans h.values, fun node => (h'.nodes node).trans (h.nodes node),
    h'.markup.trans h.markup,
    fun node hnode => (h'.live node ((h.nodes node).mpr hnode)).trans (h.live node hnode),
    h'.scans.trans h.scans⟩

/-- **Worlds that are alike for a component** show the same of it. -/
theorem Alike.sameView (hw : w.Stands division id) (h : w.Alike division id ρ u) : w.SameView id u where
  store := h.store
  values := h.value?
  nodes node := by
    have hlink : (u.page id).Link = (w.page id).Link := by
      funext c p
      exact congrArg (· = some p) (h.links.parent? c)
    unfold Inside
    rw [hlink, h.root]
  markup := by
    rw [h.root]
    exact Document.innerHtml_congr_below hw.coherent h.links h.content
  live node hnode := Document.value_congr h.links (h.content node hnode)
  scans := h.scans

end World

/-! ## What is done within a component -/

/-- Twinned computations leave twins. -/
theorem Run.Twinned.left {ι α β : Type} [Preorder ι] {I : ι → World κ σ → World κ σ → Prop} {i : ι}
    {S : α → β → Prop} {m : Run κ σ α} {n : Run κ σ β} (h : Run.Twinned I i S m n) {w u : World κ σ}
    (hI : I i w u) : ∃ j, i ≤ j ∧ I j (Run.left m w) (Run.left n u) := by
  have hjoint := h i w u (le_refl i) hI
  unfold Run.left
  cases hm : m w with
  | ok a w' =>
    cases hn : n u with
    | ok b u' =>
      rw [hm, hn] at hjoint
      exact hjoint.2
    | error g u' =>
      rw [hm, hn] at hjoint
      exact hjoint.elim
  | error f w' =>
    cases hn : n u with
    | ok b u' =>
      rw [hm, hn] at hjoint
      exact hjoint.elim
    | error g u' =>
      rw [hm, hn] at hjoint
      exact hjoint.2

/-- What is done by one activity alone is done within the component. -/
theorem World.Stands.within {w : World κ σ} (hw : w.Stands division id) {m : Run κ σ Unit}
    (hm : ∀ ρ, Run.Twinned (Twins division id w w) ρ Eq m m) : w.Within division id (Run.left m w) := by
  obtain ⟨_, _, htwins⟩ := (hm _).left (Alike.refl hw).twins
  exact htwins.mine

section

variable (hcustoms : customs.Divided division) {depth : Nat} {w u w' : World κ (Diary κ σ)}

include hcustoms

theorem Run.within_hook {hook : Option κ}
    (hhook : ∀ run, hook = some run → (customs run (.hook id)).KeepsTo division id)
    (hw : w.Stands division.kept id)
    (h : Run.runHook (customs.handle depth) id hook w = .ok () w') :
    w.Within division.kept id w' := by
  have hwithin : w.Within division.kept id
      (Run.left (Run.runHook (customs.handle depth) id hook) w) := by
    refine hw.within fun ρ => ?_
    cases hook with
    | none => exact .pure rfl
    | some run => exact Run.twinned_handle hw hw hcustoms depth (hhook run rfl)
  unfold Run.left at hwithin
  rw [h] at hwithin
  exact hwithin

variable (depth) {demand : Demand κ} (hdemand : demand.Own division id)

include hdemand

theorem Run.twinned_demand (hw : w.Stands division.kept id) (hu : u.Stands division.kept id)
    (ρ : SubscriberId → SubscriberId → Prop) :
    Run.Twinned (Twins division.kept id w u) ρ Eq (demand.perform (customs.handle depth))
      (demand.perform (customs.handle depth)) := by
  refine Run.twinned_perform hw hu (fun run hrun value => ?_) (fun run hrun event => ?_) hdemand
  · exact Run.twinned_handle hw hu hcustoms depth (hcustoms.listens id run hrun value)
  · exact Run.twinned_handle hw hu hcustoms depth (hcustoms.answers id run hrun event)

/-- **What a component's own demand** is done within it. -/
theorem Run.within_demand (hw : w.Stands division.kept id) :
    w.Within division.kept id (Run.left (demand.perform (customs.handle depth)) w) :=
  hw.within (Run.twinned_demand hcustoms depth hdemand hw hw)

end

/-! ## Making components -/

section

variable (hcustoms : customs.Divided division) {depth : Nat} {document : DocumentId}
  {config : Config κ} {w w' : World κ (Diary κ σ)} (hcoherent : (w.document document).Coherent)
  (hneighbours : w.Neighbours division.kept members)

include hcustoms hcoherent hneighbours

/-- **Up to its rendering** a component arrives, and its root is an element still, so that it is rendered
without a fault. -/
theorem arrives_created {root : NodeId} {w₁ : World κ (Diary κ σ)}
    (hconfig : config.KeepsTo division customs w.components.size)
    (hroot : root < (w.document document).size)
    (helement : ∃ e, (w.document document).content root = .element e)
    (hcreated : Run.runHook (customs.handle depth) w.components.size config.created
      ((w.tell [.mounting config.el]).addComponent document root config) = .ok () w₁) :
    w₁.Arrives division.kept members w.components.size ∧
      (w₁.component w.components.size).document = document ∧
        ∀ t, (w₁.rendering w.components.size t).fault = none := by
  obtain ⟨e, he⟩ := helement
  have htold : (w.tell [.mounting config.el]).Neighbours division.kept members :=
    hneighbours.withTraces _
  have hadded : ((w.tell [.mounting config.el]).addComponent document root config).Arrives
      division.kept members w.components.size :=
    World.arrives_addComponent htold hcoherent (World.lt_of_element he) hroot hconfig.methods
  obtain ⟨watchers, hcomponent⟩ :=
    World.component_addComponent (w.tell [.mounting config.el]) document root config
  have hcomponent : ((w.tell [.mounting config.el]).addComponent document root config).component
      w.components.size = _ := hcomponent
  have hcreating := Run.within_hook hcustoms (fun run hrun => hconfig.hooks run (.inl hrun))
    hadded.stands hcreated
  have harrives := hadded.within hcreating
  refine ⟨harrives, hcreating.document.trans (congrArg Component.document hcomponent), fun t => ?_⟩
  refine Template.mount_fault_eq_none _ _ harrives.stands.coherent harrives.stands.root_lt ?_
  have hpage : ((w.tell [.mounting config.el]).addComponent document root config).page
      w.components.size = w.document document := by
    unfold World.page
    rw [hcomponent]
    exact congrArg (·.getD document .empty)
      (World.adds_addComponent (w.tell [.mounting config.el]) document root config).documents
  have hkind := hcreating.grows.kind root (hpage ▸ hroot)
  have hroot' : (w₁.component w.components.size).root = root :=
    hcreating.root.trans (congrArg Component.root hcomponent)
  rw [hpage, he] at hkind
  obtain ⟨e', he'⟩ := eq_element_of_kind hkind
  rw [hroot', show (w₁.document _).content root = _ from he']
  rfl

/-- **A component that is made beside others** is their neighbour. -/
theorem neighbours_mount (hconfig : config.KeepsTo division customs id)
    (h : Run.mount (customs.handle depth) document config w = .ok (.ok id) w')
    (hroots : ∀ other ∈ members, w'.Beside id other) :
    w'.Neighbours division.kept (id :: members) ∧ (w'.component id).document = document := by
  obtain ⟨root, w₁, w₂, w₃, ⟨hroot, helement⟩, rfl, hcreated, hrender, hmounted, rfl⟩ :=
    Run.mount_stages h
  obtain ⟨harrives, hdocument, hfault⟩ :=
    arrives_created hcustoms hcoherent hneighbours hconfig hroot helement hcreated
  have harrives : (w₁.tell [.compiling]).Arrives division.kept members w.components.size :=
    harrives.withTraces _
  have hfault : ((w₁.tell [.compiling]).rendering w.components.size
      (w₁.compiled w.components.size)).fault = none := hfault _
  obtain ⟨_, _, hrendered, traces, rfl⟩ :=
    (Run.renderComponent_eq (w := w₁.tell [.compiling]) hfault).exists_ok rfl
  obtain rfl : _ = w₂ := by
    have hsame := hrendered.symm.trans hrender
    injection hsame
  have hbare : (w₁.compiled w.components.size).Bare := Template.bare_ofContents _
  have hproper := w₁.proper_compiled w.components.size
  have hstands := harrives.stands.withRendering hbare hproper hfault
  have htraced : World.Stands division.kept w.components.size
    { (w₁.tell [.compiling]).withRendering w.components.size (w₁.compiled w.components.size) with
      traces } := { hstands with }
  have hmounting := Run.within_hook hcustoms (fun run hrun => hconfig.hooks run (.inr hrun)) htraced
    hmounted
  have hrooted : ∀ other ∈ members, w₃.Beside w.components.size other := hroots
  have hrendered := harrives.withRendering hbare hproper hfault fun other hother => by
    have hbeside := hmounting.beside (harrives.clear other hother).1 (hrooted other hother)
    exact hbeside
  refine ⟨((hrendered.withTraces traces).within List.mem_cons_self hmounting).withTraces _, ?_⟩
  refine hmounting.document.trans ?_
  exact (congrArg Component.document (World.component_withRendering harrives.stands)).trans hdocument

end

/-- Nodes that do not contain each other lie beside each other. -/
theorem Dom.Document.Coherent.not_above_of_contains {d : Document κ} (hd : d.Coherent)
    {ancestor node : NodeId} (h : d.contains ancestor node = .ok false) :
    ¬ ReflTransGen d.Link node ancestor := by
  unfold Dom.Document.contains at h
  split at h
  · cases h
  · rename_i hne
    cases hnode : d.node node with
    | error f =>
      rw [hnode] at h
      cases h
    | ok n =>
      rw [hnode] at h
      refine hd.not_reflTransGen hne fun hmem => ?_
      rw [← List.contains_iff_mem] at hmem
      injection h with h
      rw [hmem] at h
      cases h

section

variable (hcustoms : customs.Divided division) {depth : Nat} {document : DocumentId}
  {w u : World κ (Diary κ σ)}

include hcustoms

/-- **Housemates are neighbours.** -/
theorem Housemates.neighbours (h : Housemates customs division depth document members w) :
    w.Neighbours division.kept members ∧ (w.document document).Coherent := by
  induction h with
  | nobody hcoherent => exact ⟨World.neighbours_nil, hcoherent⟩
  | @mount members w w' id config before made keeps beside ih =>
    obtain ⟨hneighbours, hcoherent⟩ := ih
    -- that it stands, by itself, makes the document well formed
    obtain ⟨halone, hdocument⟩ := neighbours_mount hcustoms hcoherent World.neighbours_nil keeps made
      fun _ hother => absurd hother List.not_mem_nil
    have hcoherent' : (w'.document document).Coherent := by
      rw [← hdocument]
      exact (halone.stands id List.mem_cons_self).coherent
    refine ⟨(neighbours_mount hcustoms hcoherent hneighbours keeps made fun other hother hsame => ?_).1,
      hcoherent'⟩
    obtain ⟨htheirs, hours⟩ := beside other hother
    unfold World.Inside World.page
    rw [← hsame, hdocument]
    exact ⟨hcoherent'.not_above_of_contains hours, hcoherent'.not_above_of_contains htheirs⟩
  | @demand members w id demand before member own ih =>
    obtain ⟨hneighbours, hcoherent⟩ := ih
    have hwithin := Run.within_demand hcustoms depth own (hneighbours.stands id member)
    refine ⟨hneighbours.within member hwithin, ?_⟩
    by_cases hsame : document = (w.component id).document
    · subst hsame
      have hcoherent' := hwithin.coherent hcoherent
      unfold World.page at hcoherent'
      rwa [hwithin.document] at hcoherent'
    · rw [hwithin.elsewhere document hsame]
      exact hcoherent

/-- **An interleaving of demands** leaves a component as if only those on itself had been made. -/
theorem alike_meeting (hid : id ∈ members) {demands : List (Demand κ)}
    (hdemands : ∀ demand ∈ demands, ∃ member ∈ members, demand.Own division member)
    (hw : w.Neighbours division.kept members) (hu : u.Stands division.kept id)
    (halike : ∃ ρ, w.Alike division.kept id ρ u) :
    (w.meeting (customs.handle depth) demands).Stands division.kept id ∧
      ∃ ρ, (w.meeting (customs.handle depth) demands).Alike division.kept id ρ
        (u.meeting (customs.handle depth) (demands.filter (·.component? = some id))) := by
  induction demands generalizing w u with
  | nil => exact ⟨hw.stands id hid, halike⟩
  | cons demand demands ih =>
    obtain ⟨⟨member, hmember, hown⟩, hdemands⟩ := List.forall_mem_cons.mp hdemands
    have hwithin := Run.within_demand hcustoms depth hown (hw.stands member hmember)
    have hneighbours := hw.within hmember hwithin
    obtain ⟨ρ, halike⟩ := halike
    by_cases he : member = id
    · subst he
      rw [List.filter_cons_of_pos (by simpa using hown.component?)]
      -- the demand is made in both worlds, to the same effect on the component
      obtain ⟨ρ', _, htwins⟩ := (Run.twinned_demand hcustoms depth hown
        (hw.stands member hid) hu _).left halike.twins
      exact ih hdemands hneighbours (htwins.yours.stands hu) ⟨ρ', htwins.alike⟩
    · have hother : demand.component? ≠ some id := by
        rw [hown.component?]
        exact fun hsame => he (Option.some.inj hsame)
      rw [List.filter_cons_of_neg (by simpa using hother)]
      have hcrew := halike.twins.alike
      exact ih hdemands hneighbours hu ⟨_, (hw.clear member hmember id hid he).alike (Ne.symm he) hwithin
        (hw.stands id hid) hcrew fun s s' hs => hs.1.1⟩

/-- **Components that share a document are isolated.** Let components be made on one document, no root
containing another, and let the hooks, methods and subscribers of each keep to it, neither writing nor
reading across. Then any interleaving of demands on them (keys are written and brought up to date,
handlers subscribed, methods called) leaves of each the same view as the demands on itself alone, in the
same order. In particular two demands on different components commute, wherever they stand. -/
theorem demands_isolated (h : Housemates customs division depth document members w) (hid : id ∈ members) :
    (∀ demands, (∀ demand ∈ demands, ∃ member ∈ members, demand.Own division member) →
      (w.meeting (customs.handle depth) demands).SameView id
        (w.meeting (customs.handle depth) (demands.filter (·.component? = some id)))) ∧
    ∀ before one other after,
      (∀ demand ∈ before ++ one :: other :: after, ∃ member ∈ members, demand.Own division member) →
      one.component? ≠ other.component? →
      (w.meeting (customs.handle depth) (before ++ one :: other :: after)).SameView id
        (w.meeting (customs.handle depth) (before ++ other :: one :: after)) := by
  obtain ⟨hneighbours, _⟩ := h.neighbours hcustoms
  have hview : ∀ demands, (∀ demand ∈ demands, ∃ member ∈ members, demand.Own division member) →
      (w.meeting (customs.handle depth) demands).SameView id
        (w.meeting (customs.handle depth) (demands.filter (·.component? = some id))) := by
    intro demands hdemands
    have hstands := hneighbours.stands id hid
    obtain ⟨hafter, _, halike⟩ :=
      alike_meeting hcustoms hid hdemands hneighbours hstands ⟨_, Alike.refl hstands⟩
    exact halike.sameView hafter
  refine ⟨hview, fun before one other after hdemands hne => ?_⟩
  have hswapped : ∀ demand ∈ before ++ other :: one :: after,
      ∃ member ∈ members, demand.Own division member := by
    intro demand hmem
    refine hdemands demand ?_
    simp only [List.mem_append, List.mem_cons] at hmem ⊢
    tauto
  have hsame : (before ++ one :: other :: after).filter (·.component? = some id) =
      (before ++ other :: one :: after).filter (·.component? = some id) := by
    rw [List.filter_append, List.filter_append]
    congr 1
    by_cases hone : one.component? = some id
    · have hother : other.component? ≠ some id := fun hother => hne (hone.trans hother.symm)
      simp [hone, hother]
    · simp [List.filter_cons, hone]
  have hthis := hview _ hdemands
  rw [hsame] at hthis
  exact hthis.trans (hview _ hswapped).symm

end

/-! ## Two paragraphs -/

/-- Two paragraphs, each with two texts. -/
def twinPage : String := "<p id=a>{{ n }}<b>{{ m }}</b></p><p id=b>{{ n }}<b>{{ m }}</b></p>"

/-- A component on one of them. -/
def twin (κ : Type) (el : String) : Config κ where
  el := el
  data := [("n", .int 0), ("m", .int 0)]
  methods := []
  created := none
  mounted := none
  options := {}

/-- A world with nothing but the page. -/
def twinWorld (κ : Type) : World κ (Diary κ Unit) :=
  { World.ofHost ⟨(), [], []⟩ with
    documents := #[(Document.parse twinPage : Except _ (Document (Action κ))).toOption.getD .empty] }

theorem coherent_twinWorld (κ : Type) : ((twinWorld κ).document 0).Coherent := by
  show ((Document.parse twinPage : Except _ (Document (Action κ))).toOption.getD .empty).Coherent
  cases hparse : (Document.parse twinPage : Except _ (Document (Action κ))) with
  | ok d => exact Document.coherent_of_parse hparse
  | error e => exact Document.coherent_empty

/-- The world after a component has been made on one of the paragraphs. -/
def World.withTwin (customs : Customs κ Unit) (w : World κ (Diary κ Unit)) (el : String) :
    World κ (Diary κ Unit) :=
  Run.left (Run.mount (customs.handle 2) 0 (twin κ el)) w

/-- Both components. -/
def twins (customs : Customs κ Unit) : World κ (Diary κ Unit) :=
  ((twinWorld κ).withTwin customs "#a").withTwin customs "#b"

/-! ### Subscribers that keep to their component -/

/-- A subscriber is named for its component. It writes what it hears to the other key. -/
def echoing : Customs ComponentId Unit
  | id, .write value => .ask (.write id "m" value) fun _ => .done
  | _, _ => .done

/-- They have nothing to remember. -/
def echoes : Division ComponentId Unit Unit where
  listens id run := run = id
  answers _ _ := False
  memory _ _ := ()

/-- Each of the two has one key written, and it is echoed in the first of them. -/
theorem demands_isolated_echo :
    Housemates echoing echoes 2 0 [1, 0] (twins echoing) ∧
      (World.meeting (echoing.handle 2) (twins echoing)
        [.subscribe 0 "n" 0, .write 1 "n" (.int 3), .write 0 "n" (.int 2)]).SameView 0
          (World.meeting (echoing.handle 2) (twins echoing)
            [.subscribe 0 "n" 0, .write 0 "n" (.int 2)]) ∧
      (World.meeting (echoing.handle 2) (twins echoing)
        ([.subscribe 0 "n" 0] ++ .write 1 "n" (.int 3) :: .write 0 "n" (.int 2) :: [])).SameView 0
          (World.meeting (echoing.handle 2) (twins echoing)
            ([.subscribe 0 "n" 0] ++ .write 0 "n" (.int 2) :: .write 1 "n" (.int 3) :: [])) ∧
      World.value? (World.meeting (echoing.handle 2) (twins echoing)
          [.subscribe 0 "n" 0, .write 1 "n" (.int 3), .write 0 "n" (.int 2)])
        ((World.meeting (echoing.handle 2) (twins echoing)
          [.subscribe 0 "n" 0, .write 1 "n" (.int 3), .write 0 "n" (.int 2)]).component 0).store "m" =
            some (.int 2) := by
  have hcustoms : echoing.Divided echoes := by
    refine ⟨?_, fun _ _ hanswers => hanswers.elim⟩
    rintro id _ rfl value
    exact ⟨rfl, fun _ => trivial⟩
  have hkeeps : ∀ el id, (twin ComponentId el).KeepsTo echoes echoing id := by
    refine fun el id => ⟨fun _ hentry => absurd hentry List.not_mem_nil, ?_⟩
    rintro run (hrun | hrun) <;> cases hrun
  have hfirst := Run.eq_of_makesComponent (show Run.makesComponent
    (Run.mount (echoing.handle 2) 0 (twin ComponentId "#a")) 0 (twinWorld ComponentId) = true by
      decide +kernel)
  have hsecond := Run.eq_of_makesComponent (show Run.makesComponent
    (Run.mount (echoing.handle 2) 0 (twin ComponentId "#b")) 1
      ((twinWorld ComponentId).withTwin echoing "#a") = true by decide +kernel)
  have hone := Housemates.mount (.nobody (coherent_twinWorld ComponentId)) hfirst (hkeeps _ _)
    fun _ hother => absurd hother List.not_mem_nil
  have hhouse : Housemates echoing echoes 2 0 [1, 0] (twins echoing) := by
    refine .mount hone hsecond (hkeeps _ _) fun other hother => ?_
    obtain rfl := List.mem_singleton.mp hother
    decide +kernel
  have howned : ∀ demand ∈ ([.subscribe 0 "n" 0, .write 1 "n" (.int 3), .write 0 "n" (.int 2)] :
      List (Demand ComponentId)), ∃ member ∈ [1, 0], demand.Own echoes member := by
    simp [Demand.Own, echoes]
  obtain ⟨hview, hcommute⟩ := demands_isolated hcustoms hhouse (show 0 ∈ [1, 0] by decide)
  refine ⟨hhouse, hview _ howned, hcommute [.subscribe 0 "n" 0] (.write 1 "n" (.int 3))
    (.write 0 "n" (.int 2)) [] howned (by simp [Demand.component?]), ?_⟩
  decide +kernel

/-! ### A subscriber that looks at another component -/

/-- User code that asks for nothing else. -/
def Conduct.Asks (P : Demand κ → Prop) : Conduct κ σ → Prop
  | .done | .fail _ => True
  | .look next => ∀ w, (next w).Asks P
  | .note _ next => next.Asks P
  | .ask demand next => P demand ∧ ∀ fault, (next fault).Asks P

/-- A subscriber of the first component that writes to it, if the second has a certain value. -/
def nosy : Customs Unit Unit
  | (), .write _ => .look fun w =>
    if w.value? (w.component 1).store "n" = some (.int 1) then
      .ask (.write 0 "m" (.int 1)) fun _ => .done
    else .done
  | _, _ => .done

/-- **It is not enough that no user code writes across.** The subscriber writes to its own component only,
and neither root contains the other; yet a write to the second component shows in the first. -/
theorem nosy_subscriber :
    (∀ run occasion, (nosy run occasion).Asks fun demand => ∃ key value, demand = .write 0 key value) ∧
      (∃ w₁ w₂, ((twinWorld Unit).document 0).Coherent ∧
        Run.mount (nosy.handle 2) 0 (twin Unit "#a") (twinWorld Unit) = .ok (.ok 0) w₁ ∧
        Run.mount (nosy.handle 2) 0 (twin Unit "#b") w₁ = .ok (.ok 1) w₂ ∧ w₂ = twins nosy) ∧
      ((twins nosy).document 0).contains ((twins nosy).component 0).root
        ((twins nosy).component 1).root = .ok false ∧
      ((twins nosy).document 0).contains ((twins nosy).component 1).root
        ((twins nosy).component 0).root = .ok false ∧
      ¬ (World.meeting (nosy.handle 2) (twins nosy)
          [.subscribe 0 "n" (), .write 1 "n" (.int 1), .write 0 "n" (.int 1)]).SameView 0
        (World.meeting (nosy.handle 2) (twins nosy) [.subscribe 0 "n" (), .write 0 "n" (.int 1)]) := by
  refine ⟨?_, ⟨_, _, coherent_twinWorld Unit, Run.eq_of_makesComponent (by decide +kernel),
    Run.eq_of_makesComponent (by decide +kernel), rfl⟩, by decide +kernel, by decide +kernel, ?_⟩
  · intro _ occasion
    cases occasion with
    | write value =>
      intro w
      dsimp only
      split
      · exact ⟨⟨_, _, rfl⟩, fun _ => trivial⟩
      · trivial
    | _ => trivial
  · intro hsame
    have hvalues := congrFun hsame.values "m"
    revert hvalues
    decide +kernel

end BoundView
