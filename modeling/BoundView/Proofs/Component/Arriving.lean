import BoundView.Proofs.Component.Keeping
import BoundView.Proofs.Component.Strictness
import BoundView.Proofs.Rendering.Above
import BoundView.Proofs.World.Neighbours

/-!
# A component arrives beside another

A component that is made gets new cells and new watchers, and renders new nodes below its root. So it
stands in the end, and a component that stood before and whose root lies elsewhere in the document is left
alone by each step: by the new store, by the watching of its keys, and by the rendering.

Main statements: `arrives_addComponent`, `Arrives.withRendering`, `mount_stages`.
-/

namespace BoundView

open BoundView.Dom (Document NodeId)
open Relation (ReflTransGen)

variable {κ σ τ : Type} {division : Division κ σ τ} {id other : ComponentId} {w w' : World κ σ}
  {document : DocumentId} {root : NodeId} {config : Config κ} {key : String}

namespace World

/-! ## Watching -/

/-- A component that stands may have one more watcher. -/
theorem Stands.addWatcher (h : w.Stands division id) {s : SubscriberId}
    (hs : ∃ reaction, w.reaction? s = some reaction ∧ reaction.Belongs division id) :
    (w.modifyComponent id fun c => { c with watchers := c.watchers ++ [s] }).Stands division id ∧
      ∀ r, (w.modifyComponent id fun c => { c with watchers := c.watchers ++ [s] }).Crew id r →
        w.Crew id r ∨ r = s := by
  have hcomponent := component_modifyComponent_self h.there fun c =>
    { c with watchers := c.watchers ++ [s] }
  generalize hv : (w.modifyComponent id fun c => { c with watchers := c.watchers ++ [s] }) = v at *
  have hstore : (v.component id).store = (w.component id).store := by rw [hcomponent]
  have hpage : v.page id = w.page id := by
    unfold page
    rw [hcomponent, ← hv]
    rfl
  have hcell : v.cell = w.cell := by
    rw [← hv]
    rfl
  have hreaction : v.reaction? = w.reaction? := by
    rw [← hv]
    rfl
  have hinside : ∀ node, v.Inside id node ↔ w.Inside id node := by
    intro node
    unfold Inside
    rw [hpage, hcomponent]
  have hcrew : ∀ r, v.Crew id r → w.Crew id r ∨ r = s := by
    rintro r (hr | ⟨cell, hown, hr⟩)
    · rw [hcomponent] at hr
      rcases List.mem_append.mp hr with hr | hr
      · exact .inl (.inl hr)
      · exact .inr (List.mem_singleton.mp hr)
    · rw [hcell] at hr
      exact .inl (.inr ⟨cell, (owns_congr hstore).mp hown, hr⟩)
  refine ⟨⟨?there, ?document_lt, ?cell_lt, ?crew, ?methods, ?coherent, ?root_lt, ?housed, ?inside⟩,
    hcrew⟩
  case there =>
    rw [← hv]
    exact Nat.lt_of_lt_of_eq h.there Array.size_modify.symm
  case document_lt =>
    rw [hcomponent, ← hv]
    exact h.document_lt
  case cell_lt =>
    rw [← hv]
    exact fun cell hown => h.cell_lt cell ((owns_congr (hv ▸ hstore)).mp hown)
  case crew =>
    intro r hr
    rw [hreaction]
    rcases hcrew r hr with hr | rfl
    · exact h.crew r hr
    · exact hs
  case methods =>
    rw [hcomponent]
    exact h.methods
  case coherent =>
    rw [hpage]
    exact h.coherent
  case root_lt =>
    rw [hpage, hcomponent]
    exact h.root_lt
  case housed =>
    rw [hpage, hcomponent]
    exact h.housed
  case inside =>
    rw [hcomponent]
    exact fun t ht node hnode => (hinside node).mpr (h.inside t ht node hnode)

/-- **Watching a key of its own** a component goes on standing, with a new subscriber in its crew. -/
theorem Stands.watch (h : w.Stands division id) (key : String) :
    (w.watch id key).Stands division id ∧
      ∀ s, (w.watch id key).Crew id s → w.Crew id s ∨ w.subscribers.size ≤ s := by
  unfold World.watch
  cases hkey : (w.component id).store.cell? key with
  | none => exact ⟨h, fun s hs => .inl hs⟩
  | some cell =>
    have hwithin := (Within.refl division id w).subscribe h ⟨key, hkey⟩
      (show (Reaction.patch id key).Belongs division id from rfl)
    obtain ⟨hstands, hcrew⟩ := (hwithin.stands h).addWatcher (s := w.subscribers.size)
      ⟨_, (w.reaction?_subscribe cell _ _).trans (if_pos rfl), rfl⟩
    refine ⟨hstands, fun s hs => ?_⟩
    rcases hcrew s hs with hs | rfl
    · exact (hwithin.crew s hs).imp_right And.left
    · exact .inr (Nat.le_refl _)

theorem size_subscribers_watch (w : World κ σ) (id : ComponentId) (key : String) :
    w.subscribers.size ≤ (w.watch id key).subscribers.size := by
  unfold World.watch
  cases (w.component id).store.cell? key with
  | none => exact Nat.le_refl _
  | some cell =>
    show w.subscribers.size ≤ (w.subscribers.push _).size
    rw [Array.size_push]
    exact Nat.le_succ _

/-- Watching a key changes nothing of the component but its watchers. -/
theorem component_watch (hid : id < w.components.size) (key : String) :
    ∃ watchers, (w.watch id key).component id = { w.component id with watchers } := by
  unfold World.watch
  cases (w.component id).store.cell? key with
  | none => exact ⟨_, rfl⟩
  | some cell =>
    exact ⟨_, component_modifyComponent_self (w := w.subscribe cell (.patch id key)) hid _⟩

theorem component_watchAll (hid : id < w.components.size) (keys : List String) :
    ∃ watchers, (keys.foldl (fun w key => w.watch id key) w).component id =
      { w.component id with watchers } := by
  induction keys generalizing w with
  | nil => exact ⟨_, rfl⟩
  | cons key keys ih =>
    obtain ⟨_, hcomponent⟩ := component_watch hid key
    obtain ⟨watchers, hcomponent'⟩ := ih (Nat.lt_of_lt_of_eq hid (size_components_watch w id key).symm)
    exact ⟨watchers, by rw [List.foldl_cons, hcomponent', hcomponent]⟩

/-- **A component that is added** is as it was asked for, but for its watchers. -/
theorem component_addComponent (w : World κ σ) (document : DocumentId) (root : NodeId)
    (config : Config κ) :
    ∃ watchers, (w.addComponent document root config).component w.components.size =
      { w.added document root config with watchers } := by
  have hid : w.components.size < (w.withAdded document root config).components.size := by
    rw [size_components_withAdded]
    exact Nat.lt_succ_self _
  obtain ⟨watchers, hcomponent⟩ := component_watchAll hid (w.makeStore config.data).1.keys
  rw [component_withAdded, if_pos rfl] at hcomponent
  exact ⟨watchers, hcomponent⟩

/-- **All keys of a component are watched** by new subscribers. -/
theorem Stands.watchAll (h : w.Stands division id) {n : Nat} (hn : n ≤ w.subscribers.size)
    (hcrew : ∀ s, w.Crew id s → n ≤ s) (keys : List String) :
    (keys.foldl (fun w key => w.watch id key) w).Stands division id ∧
      ∀ s, (keys.foldl (fun w key => w.watch id key) w).Crew id s → n ≤ s := by
  induction keys generalizing w with
  | nil => exact ⟨h, hcrew⟩
  | cons key keys ih =>
    obtain ⟨hstands, hwatched⟩ := h.watch key
    refine ih hstands (Nat.le_trans hn (size_subscribers_watch w id key)) fun s hs => ?_
    exact (hwatched s hs).elim (hcrew s) (Nat.le_trans hn)

/-! ## What was there before -/

/-- **Nothing is changed that was there**; there may be more cells, subscribers and components. -/
structure Adds (w w' : World κ σ) : Prop where
  documents : w'.documents = w.documents
  components : w.components.size ≤ w'.components.size
  component : ∀ id, id < w.components.size → w'.component id = w.component id
  cells : w.cells.size ≤ w'.cells.size
  cell : ∀ cell, cell < w.cells.size → w'.cell cell = w.cell cell
  subscribers : w.subscribers.size ≤ w'.subscribers.size
  subscriber : ∀ s, s < w.subscribers.size → w'.subscribers[s]? = w.subscribers[s]?

theorem Adds.withAdded (w : World κ σ) (document : DocumentId) (root : NodeId) (config : Config κ) :
    w.Adds (w.withAdded document root config) := by
  have hdeclared := makeStore_spec w config.data
  refine ⟨hdeclared.documents, ?_, fun id hid => ?_, (founded_makeStore w config.data).size_le,
    fun cell hcell => cell_makeStore w config.data hcell, ?_, fun s _ => ?_⟩
  · rw [size_components_withAdded]
    exact Nat.le_succ _
  · rw [component_withAdded, if_neg (Nat.ne_of_lt hid)]
  · exact Nat.le_of_eq (congrArg Array.size hdeclared.subscribers).symm
  · exact congrArg (·[s]?) hdeclared.subscribers

/-- A new component watches keys with new cells. -/
theorem Adds.watchAll (h : w.Adds w') (hid : w.components.size ≤ id ∧ id < w'.components.size)
    (hcells : ∀ key cell, (w'.component id).store.cell? key = some cell →
      w.cells.size ≤ cell ∧ cell < w'.cells.size) (keys : List String) :
    w.Adds (keys.foldl (fun w key => w.watch id key) w') := by
  induction keys generalizing w' with
  | nil => exact h
  | cons key keys ih =>
    show w.Adds (keys.foldl (fun w key => w.watch id key) (w'.watch id key))
    unfold World.watch
    cases hkey : (w'.component id).store.cell? key with
    | none => exact ih h hid hcells
    | some cell =>
      obtain ⟨hge, hlt⟩ := hcells key cell hkey
      have hcomponent := component_modifyComponent
        (w := w'.subscribe cell (.patch id key)) hid.2 fun c =>
          { c with watchers := c.watchers ++ [w'.subscribers.size] }
      refine ih ⟨h.documents, ?_, fun other hother => ?_, ?_, fun other hother => ?_, ?_,
        fun s hs => ?_⟩ ⟨hid.1, ?_⟩ fun k other hk => ?_
      · exact Nat.le_trans h.components (Nat.le_of_eq Array.size_modify.symm)
      · rw [hcomponent, if_neg (Nat.ne_of_lt (Nat.lt_of_lt_of_le hother hid.1))]
        exact h.component other hother
      · exact Nat.le_trans h.cells (Nat.le_of_eq (size_cells_modifyCell _ _ _).symm)
      · show (w'.subscribe cell (.patch id key)).cell other = _
        rw [cell_subscribe hlt, if_neg (Nat.ne_of_lt (Nat.lt_of_lt_of_le hother hge))]
        exact h.cell other hother
      · refine Nat.le_trans h.subscribers ?_
        show w'.subscribers.size ≤ (w'.subscribers.push _).size
        rw [Array.size_push]
        exact Nat.le_succ _
      · refine Eq.trans ?_ (h.subscriber s hs)
        exact (w'.getElem?_subscribe cell _ s).trans
          (if_neg (Nat.ne_of_lt (Nat.lt_of_lt_of_le hs h.subscribers)))
      · exact Nat.lt_of_lt_of_eq hid.2 Array.size_modify.symm
      · rw [hcomponent, if_pos rfl] at hk
        obtain ⟨hge', hlt'⟩ := hcells k other hk
        exact ⟨hge', Nat.lt_of_lt_of_eq hlt' (size_cells_modifyCell _ _ _).symm⟩

/-- **Adding a component** changes nothing that was there. -/
theorem adds_addComponent (w : World κ σ) (document : DocumentId) (root : NodeId)
    (config : Config κ) : w.Adds (w.addComponent document root config) := by
  have hdeclared := makeStore_spec w config.data
  have hfounded := founded_makeStore w config.data
  refine (Adds.withAdded w document root config).watchAll ⟨Nat.le_refl _, ?_⟩ (fun key cell hkey => ?_) _
  · rw [size_components_withAdded]
    exact Nat.lt_succ_self _
  · rw [component_withAdded, if_pos rfl] at hkey
    exact ⟨hfounded.fresh key cell hkey, (hdeclared.unheard key cell hkey).1⟩

/-- **A component that stands is left alone** where nothing is changed that was there. -/
theorem Adds.leaves (h : w.Adds w') (hw : w.Stands division id) : w.Leaves id w' := by
  have hpage : w'.page id = w.page id := by
    unfold page document
    rw [h.component id hw.there, h.documents]
  refine ⟨h.component id hw.there, h.components, Nat.le_of_eq (congrArg Array.size h.documents).symm,
    h.cells, fun cell hcell => h.cell cell (hw.cell_lt cell hcell),
    fun s hs => h.subscriber s (hw.lt_of_crew hs), ?_, ?_, fun node _ => ?_⟩
  · rw [hpage]
    exact .refl _
  · rw [hpage]
    exact fun hcoherent => hcoherent
  · unfold Inside
    rw [hpage, h.component id hw.there]

/-- **A new component stands**, and its cells and its crew are new. -/
theorem stands_addComponent (hcoherent : (w.document document).Coherent)
    (hdocument : document < w.documents.size) (hroot : root < (w.document document).size)
    (hmethods : ∀ entry ∈ config.methods, division.answers w.components.size entry.2) :
    (w.addComponent document root config).Stands division w.components.size ∧
      (∀ cell, (w.addComponent document root config).Owns w.components.size cell →
        w.cells.size ≤ cell) ∧
      ∀ s, (w.addComponent document root config).Crew w.components.size s →
        w.subscribers.size ≤ s := by
  have hdeclared := makeStore_spec w config.data
  have hthis : (w.withAdded document root config).component w.components.size =
      w.added document root config := by
    rw [component_withAdded, if_pos rfl]
  have hpage : (w.withAdded document root config).page w.components.size = w.document document := by
    unfold page
    rw [hthis]
    exact congrArg (·.getD document .empty) hdeclared.documents
  have hnew : ∀ cell, (w.withAdded document root config).Owns w.components.size cell →
      w.cells.size ≤ cell ∧ cell < (w.withAdded document root config).cells.size ∧
        ((w.withAdded document root config).cell cell).subscribers = [] := by
    rintro cell ⟨key, hkey⟩
    rw [hthis] at hkey
    exact ⟨(founded_makeStore w config.data).fresh key cell hkey, hdeclared.unheard key cell hkey⟩
  have hcrew : ∀ s, ¬ (w.withAdded document root config).Crew w.components.size s := by
    rintro s (hs | ⟨cell, hcell, hs⟩)
    · rw [hthis] at hs
      cases hs
    · rw [(hnew cell hcell).2.2] at hs
      cases hs
  have hadded : (w.withAdded document root config).Stands division w.components.size := by
    refine ⟨?there, ?document_lt, fun cell hcell => (hnew cell hcell).2.1,
      fun s hs => (hcrew s hs).elim, ?methods, ?coherent, ?root_lt, ?housed, ?inside⟩
    case there =>
      rw [size_components_withAdded]
      exact Nat.lt_succ_self _
    case document_lt =>
      rw [hthis]
      exact Nat.lt_of_lt_of_eq hdocument (congrArg Array.size hdeclared.documents).symm
    case methods =>
      intro name run hrun
      rw [hthis] at hrun
      obtain ⟨before, after, hmethods', _⟩ := List.lookup_eq_some_iff.mp hrun
      have hmem : (name, run) ∈ config.methods := by
        rw [← List.mem_reverse, show config.methods.reverse = _ from hmethods']
        simp
      exact hmethods _ hmem
    case coherent =>
      rw [hpage]
      exact hcoherent
    case root_lt =>
      rw [hpage, hthis]
      exact hroot
    case housed =>
      intro t ht
      rw [hthis] at ht
      cases ht
    case inside =>
      intro t ht
      rw [hthis] at ht
      cases ht
  obtain ⟨hstands, hcrew'⟩ := hadded.watchAll
    (Nat.le_of_eq (congrArg Array.size hdeclared.subscribers).symm) (fun s hs => (hcrew s hs).elim)
    (w.makeStore config.data).1.keys
  obtain ⟨watchers, hcomponent⟩ := component_addComponent w document root config
  refine ⟨hstands, fun cell hcell => (hnew cell ?_).1, hcrew'⟩
  exact (owns_congr (by rw [hthis, hcomponent])).mp hcell

/-! ## Rendering -/

section

variable {t : Template} (hw : w.Stands division id)

include hw

theorem component_withRendering : (w.withRendering id t).component id =
    { w.component id with template := some (w.rendering id t).template } :=
  component_modifyComponent_self (w := w.setDocument _ _) hw.there _

theorem component_withRendering_of_ne (hne : other ≠ id) :
    (w.withRendering id t).component other = w.component other :=
  component_modifyComponent_of_ne (w := w.setDocument _ _) hw.there hne _

theorem page_withRendering : (w.withRendering id t).page id = (w.rendering id t).document := by
  unfold page
  rw [component_withRendering hw]
  exact document_setDocument hw.document_lt _

theorem owns_withRendering {cell : CellId} :
    (w.withRendering id t).Owns id cell ↔ w.Owns id cell :=
  owns_congr (by rw [component_withRendering hw])

theorem crew_withRendering {s : SubscriberId} : (w.withRendering id t).Crew id s ↔ w.Crew id s := by
  unfold Crew
  rw [component_withRendering hw]
  exact or_congr_right (exists_congr fun cell => and_congr_left fun _ => owns_withRendering hw)

/-- **A component that is rendered** stands, with its new nodes below its root. -/
theorem Stands.withRendering (hbare : t.Bare) (hproper : t.Proper)
    (hfault : (w.rendering id t).fault = none) : (w.withRendering id t).Stands division id := by
  have hcomponent := component_withRendering (t := t) hw
  have hpage := page_withRendering (t := t) hw
  have hcoherent : (w.rendering id t).document.Coherent :=
    Template.coherent_mount hw.coherent (hproper.sound _)
  refine ⟨?there, ?document_lt, fun cell hcell => ?cell_lt, fun s hs => ?crew, ?methods, ?coherent,
    ?root_lt, ?housed, ?inside⟩
  case there => exact Nat.lt_of_lt_of_eq hw.there Array.size_modify.symm
  case document_lt =>
    rw [hcomponent]
    exact Nat.lt_of_lt_of_eq hw.document_lt Array.size_setIfInBounds.symm
  case cell_lt => exact hw.cell_lt cell ((owns_withRendering hw).mp hcell)
  case crew => exact hw.crew s ((crew_withRendering hw).mp hs)
  case methods =>
    rw [hcomponent]
    exact hw.methods
  case coherent =>
    rw [hpage]
    exact hcoherent
  case root_lt =>
    rw [hpage, hcomponent]
    exact (t.grows_mount _ _ _).lt_size hw.root_lt
  case housed =>
    intro t' ht'
    rw [hcomponent] at ht'
    cases ht'
    rw [hpage]
    exact Template.housed_mount _ _ _ _ hbare
  case inside =>
    intro t' ht' node hnode
    rw [hcomponent] at ht'
    cases ht'
    unfold Inside
    rw [hpage, hcomponent]
    exact (Template.below_mount hw.root_lt hfault hbare hcoherent hnode).to_reflTransGen

/-- Another component has the document that is rendered into, or one that stays as it is. -/
theorem page_withRendering_cases (hne : other ≠ id) :
    ((w.component other).document = (w.component id).document ∧ w.page other = w.page id ∧
      (w.withRendering id t).page other = (w.rendering id t).document) ∨
        (w.withRendering id t).page other = w.page other := by
  by_cases hsame : (w.component other).document = (w.component id).document
  · refine .inl ⟨hsame, ?_, ?_⟩
    · unfold page
      rw [hsame]
    · rw [← page_withRendering hw]
      unfold page
      rw [component_withRendering_of_ne hw hne, component_withRendering hw, hsame]
  · refine .inr ?_
    unfold page
    rw [component_withRendering_of_ne hw hne]
    exact document_setDocument_of_ne hsame _

/-- **Another component** is left alone, if the root that is rendered into is not in its precinct. -/
theorem Leaves.withRendering (hproper : t.Proper) (hfault : (w.rendering id t).fault = none)
    (hroot : (w.component other).document = (w.component id).document →
      ¬ w.Inside other (w.component id).root) (hne : other ≠ id) :
    w.Leaves other (w.withRendering id t) := by
  have hcomponent := component_withRendering_of_ne (t := t) hw hne
  have hpage := page_withRendering_cases (t := t) hw hne
  refine ⟨hcomponent, Nat.le_of_eq Array.size_modify.symm,
    Nat.le_of_eq Array.size_setIfInBounds.symm, Nat.le_refl _, fun _ _ => rfl, fun _ _ => rfl,
    ?_, ?_, fun node hlt => ?_⟩
  · rcases hpage with ⟨_, hold, hnew⟩ | hsame
    · rw [hold, hnew]
      exact t.grows_mount _ _ _
    · rw [hsame]
      exact .refl _
  · rcases hpage with ⟨_, hold, hnew⟩ | hsame
    · rw [hold, hnew]
      exact fun hcoherent => Template.coherent_mount hcoherent (hproper.sound _)
    · rw [hsame]
      exact fun hcoherent => hcoherent
  · unfold Inside
    rw [hcomponent]
    rcases hpage with ⟨hdocument, hold, hnew⟩ | hsame
    · rw [hnew, hold]
      rw [hold] at hlt
      refine ⟨Template.above_of_mount hw.coherent hw.root_lt hfault hlt,
        Template.above_mount hw.coherent hw.root_lt hfault fun hroot' => ?_⟩
      refine hroot hdocument ?_
      unfold Inside
      rw [hold]
      exact hroot'
    · rw [hsame]

/-- A root in the precinct of another component stays there when it is rendered into. -/
theorem inside_withRendering (hfault : (w.rendering id t).fault = none) (hne : other ≠ id)
    (hdocument : (w.component other).document = (w.component id).document)
    (hin : w.Inside other (w.component id).root) :
    (w.withRendering id t).Inside other ((w.withRendering id t).component id).root := by
  have hpage : w.page other = w.page id := by
    unfold page
    rw [hdocument]
  have hpage' : (w.withRendering id t).page other = (w.rendering id t).document := by
    rw [← page_withRendering hw]
    unfold page
    rw [component_withRendering_of_ne hw hne, component_withRendering hw, hdocument]
  unfold Inside at hin ⊢
  rw [hpage] at hin
  rw [hpage', component_withRendering_of_ne hw hne, component_withRendering hw]
  exact Template.above_root_mount hw.coherent hw.root_lt hfault .refl hin

end

/-! ## Arriving -/

/-- **A component arrives** among neighbours. It may have to be rendered yet. -/
structure Arrives (division : Division κ σ τ) (members : List ComponentId) (id : ComponentId)
    (w : World κ σ) : Prop where
  stands : w.Stands division id
  neighbours : w.Neighbours division members
  clear : ∀ other ∈ members, other ≠ id ∧ w.Clear id other

namespace Arrives

variable {members : List ComponentId}

theorem withTraces (h : w.Arrives division members id) (traces : Array Trace) :
    ({ w with traces } : World κ σ).Arrives division members id where
  stands := { h.stands with }
  neighbours := h.neighbours.withTraces traces
  clear other hother := ⟨(h.clear other hother).1, { (h.clear other hother).2 with }⟩

/-- **What it does meanwhile** is done within it. -/
theorem within (h : w.Arrives division members id) (hwithin : w.Within division id w') :
    w'.Arrives division members id where
  stands := hwithin.stands h.stands
  neighbours := h.neighbours.leaves fun other hother =>
    (h.clear other hother).2.leaves (h.clear other hother).1 hwithin (h.neighbours.stands other hother)
  clear other hother :=
    ⟨(h.clear other hother).1, (h.clear other hother).2.within (h.clear other hother).1 hwithin
      (h.neighbours.stands other hother)⟩

/-- **A component that has been rendered** is a neighbour, if no root contains another then. -/
theorem withRendering (h : w.Arrives division members id) {t : Template} (hbare : t.Bare)
    (hproper : t.Proper) (hfault : (w.rendering id t).fault = none)
    (hroots : ∀ other ∈ members, (w.withRendering id t).Beside id other) :
    (w.withRendering id t).Neighbours division (id :: members) := by
  have hstands := h.stands.withRendering hbare hproper hfault
  have hdocument : ((w.withRendering id t).component id).document = (w.component id).document := by
    rw [component_withRendering h.stands]
  have hleaves : ∀ other ∈ members, w.Leaves other (w.withRendering id t) := by
    intro other hother
    obtain ⟨hne, _⟩ := h.clear other hother
    refine Leaves.withRendering h.stands hproper hfault (fun hsame hin => ?_) hne
    refine (hroots other hother ?_).2 (inside_withRendering h.stands hfault hne hsame hin)
    rw [hdocument, component_withRendering_of_ne h.stands hne, hsame]
  refine (h.neighbours.leaves hleaves).cons hstands fun other hother => ?_
  obtain ⟨_, hclear⟩ := h.clear other hother
  have hother' := hleaves other hother
  have hcells : ∀ cell, (w.withRendering id t).Owns id cell →
      ¬ (w.withRendering id t).Owns other cell := fun cell hcell hcell' =>
    hclear.cells cell ((owns_withRendering h.stands).mp hcell) (hother'.owns.mp hcell')
  have hcrew : ∀ s, (w.withRendering id t).Crew id s → ¬ (w.withRendering id t).Crew other s :=
    fun s hs hs' => hclear.crew s ((crew_withRendering h.stands).mp hs) (hother'.crew_iff.mp hs')
  exact ⟨hstands.clear hcells hcrew (hroots other hother),
    (hother'.stands (h.neighbours.stands other hother)).clear
      (fun cell hcell hcell' => hcells cell hcell' hcell) (fun s hs hs' => hcrew s hs' hs)
      (hroots other hother).symm⟩

end Arrives

/-- **A new component** arrives among neighbours. -/
theorem arrives_addComponent {members : List ComponentId} (h : w.Neighbours division members)
    (hcoherent : (w.document document).Coherent) (hdocument : document < w.documents.size)
    (hroot : root < (w.document document).size)
    (hmethods : ∀ entry ∈ config.methods, division.answers w.components.size entry.2) :
    (w.addComponent document root config).Arrives division members w.components.size := by
  obtain ⟨hstands, hcells, hcrew⟩ := stands_addComponent hcoherent hdocument hroot hmethods
  obtain ⟨watchers, hcomponent⟩ := component_addComponent w document root config
  have hadds := adds_addComponent w document root config
  refine ⟨hstands, h.leaves fun other hother => hadds.leaves (h.stands other hother),
    fun other hother => ?_⟩
  have hother := h.stands other hother
  have hleaves := hadds.leaves hother
  refine ⟨Nat.ne_of_lt hother.there, fun cell hcell hcell' => ?_, fun s hs hs' => ?_,
    fun _ t ht => ?_⟩
  · exact Nat.not_lt_of_le (hcells cell hcell) (hother.cell_lt cell (hleaves.owns.mp hcell'))
  · exact Nat.not_lt_of_le (hcrew s hs) (hother.lt_of_crew (hleaves.crew_iff.mp hs'))
  · rw [hcomponent] at ht
    cases ht

/-- Where there is an element there is a document. -/
theorem lt_of_element {w : World κ σ} {document : DocumentId} {root : NodeId} {e : Dom.Element}
    (he : (w.document document).content root = .element e) : document < w.documents.size := by
  refine Nat.lt_of_not_le fun hge => ?_
  have hempty : w.document document = .empty := by
    unfold World.document
    rw [Array.getD_eq_getD_getElem?, Array.getElem?_eq_none hge]
    rfl
  rw [hempty] at he
  cases root with
  | zero => cases he
  | succ root => cases he

end World

namespace Run

/-- **A component that was made** has the root that its selector finds. -/
theorem exists_query_of_made {handle : Handle κ σ} {id : ComponentId}
    (h : mount handle document config w = .ok (.ok id) w') :
    ∃ selector root, Selector.parse config.el = .ok selector ∧
      selector.query (w.document document) = some root := by
  cases hselector : Selector.parse config.el with
  | error e =>
    unfold mount at h
    rw [bind_ok (show (tell [.mounting config.el] : Run κ σ Unit) w = .ok () _ from rfl),
      hselector] at h
    cases h
  | ok selector =>
    cases hquery : selector.query (w.document document) with
    | none =>
      have hnone : selector.query ((w.tell [.mounting config.el]).document document) = none := hquery
      unfold mount at h
      rw [bind_ok (show (tell [.mounting config.el] : Run κ σ Unit) w = .ok () _ from rfl),
        hselector] at h
      dsimp only at h
      rw [bind_ok (show (get : Run κ σ (World κ σ)) (w.tell [.mounting config.el]) =
        .ok (w.tell [.mounting config.el]) (w.tell [.mounting config.el]) from rfl), hnone] at h
      cases h
    | some root => exact ⟨selector, root, rfl, hquery⟩

/-- **The stages of making a component** on the root that was found. -/
theorem mount_stages_of_query {handle : Handle κ σ} {id : ComponentId} {selector : Selector}
    (hselector : Selector.parse config.el = .ok selector)
    (hquery : selector.query (w.document document) = some root)
    (h : mount handle document config w = .ok (.ok id) w') :
    ∃ w₁ w₂ w₃, id = w.components.size ∧
      runHook handle id config.created
        ((w.tell [.mounting config.el]).addComponent document root config) = .ok () w₁ ∧
      renderComponent id (w₁.compiled id) (w₁.tell [.compiling]) = .ok () w₂ ∧
      runHook handle id config.mounted w₂ = .ok () w₃ ∧
      w' = w₃.tell [.mounted (w₁.component id).store.keys.length] := by
  rw [mount_eq hselector hquery] at h
  cases hcreated : runHook handle w.components.size config.created
      ((w.tell [.mounting config.el]).addComponent document root config) with
  | error f w₁ =>
    unfold bringUp at h
    rw [bind_error hcreated] at h
    cases h
  | ok _ w₁ =>
    rw [bringUp_eq hcreated] at h
    cases hverdict : w₁.verdict w.components.size with
    | some e =>
      rw [hverdict] at h
      cases h
    | none =>
      rw [hverdict] at h
      dsimp only at h
      cases hrender : renderComponent w.components.size (w₁.compiled w.components.size)
          (w₁.tell [.compiling]) with
      | error f w₂ =>
        rw [bind_error hrender] at h
        cases h
      | ok _ w₂ =>
        rw [bind_ok hrender] at h
        cases hmounted : runHook handle w.components.size config.mounted w₂ with
        | error f w₃ =>
          rw [bind_error hmounted] at h
          cases h
        | ok _ w₃ =>
          rw [bind_ok hmounted] at h
          cases h
          exact ⟨w₁, w₂, w₃, rfl, hcreated, hrender, hmounted, rfl⟩

/-- **The stages of making a component** that was made. -/
theorem mount_stages {handle : Handle κ σ} {id : ComponentId}
    (h : mount handle document config w = .ok (.ok id) w') :
    ∃ root w₁ w₂ w₃, (root < (w.document document).size ∧
        ∃ e, (w.document document).content root = .element e) ∧ id = w.components.size ∧
      runHook handle id config.created
        ((w.tell [.mounting config.el]).addComponent document root config) = .ok () w₁ ∧
      renderComponent id (w₁.compiled id) (w₁.tell [.compiling]) = .ok () w₂ ∧
      runHook handle id config.mounted w₂ = .ok () w₃ ∧
      w' = w₃.tell [.mounted (w₁.component id).store.keys.length] := by
  obtain ⟨selector, root, hselector, hquery⟩ := exists_query_of_made h
  obtain ⟨w₁, w₂, w₃, hstages⟩ := mount_stages_of_query hselector hquery h
  exact ⟨root, w₁, w₂, w₃, Selector.exists_element_of_query hquery, hstages⟩

/-- Whether a component is made, with this number. -/
def makesComponent (m : Run κ σ (Except Component.Error ComponentId)) (id : ComponentId)
    (w : World κ σ) : Bool :=
  match m w with
  | .ok (.ok made) _ => made = id
  | _ => false

theorem eq_of_makesComponent {m : Run κ σ (Except Component.Error ComponentId)}
    {id : ComponentId} {w : World κ σ} (h : makesComponent m id w = true) :
    m w = .ok (.ok id) (left m w) := by
  unfold makesComponent at h
  unfold left
  split at h
  · rename_i made w' hmade
    rw [hmade, of_decide_eq_true h]
  · cases h

end Run

end BoundView
