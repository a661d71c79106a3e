import BoundView.Proofs.Component.Dispatching
import BoundView.Proofs.Component.Making
import BoundView.Proofs.Component.Program

/-!
# Faithful contracts

A contract is **faithful** when it leaves no live value loose that is bound to a declared key while
bound inputs follow writes, and when it keeps the diary settled. Where a faithful contract is kept, the
world is settled up to the edits on their way.

The contract of a new component is faithful, rendering keeps it so, and under a faithful contract
programs of any depth keep the contract, by induction on the depth and on the behaviors.

Main statements: `Contract.Met.settled`, `Run.handle_keeps`, `Contract.faithful_withTemplate`.
-/

namespace BoundView

open BoundView.Dom (Document Listener NodeId)
open BoundView.Dom.Document (SameListeners)

variable {κ σ : Type}

/-- **A settled diary**: edits may be under way where a handler is entered, and nowhere else. -/
def Diary.Settled (id : ComponentId) (diary : Diary κ σ) : Prop :=
  (∀ w ∈ diary.entered, w.Settled w.IsEdited) ∧
    ∀ w ∈ diary.returned, w.Settled (fun _ => False) ∧ (w.component id).template.isSome = true

namespace Contract

/-- **A faithful contract.** -/
structure Faithful (c : Contract κ (Diary κ σ)) : Prop extends c.Lasting where
  loose_iff : ∀ p node, c.loose p node ↔ (c.options.syncInputs = true → ∀ key,
    p.modelKey? = some key → c.store.cell? key = none)
  placed : ∀ t, c.template = some t → ∀ p ∈ t.preorder, p.isRendered = true →
    p.rendered.isSome = true
  noted : c.note = Diary.Settled c.id
  failing : c.failed = Diary.Settled c.id

variable {c : Contract κ (Diary κ σ)} {g : Stage} {w : World κ (Diary κ σ)}

/-! ## A kept contract settles the world -/

/-- **Where a faithful contract is kept, the world is settled**, up to the edits on their way. -/
theorem Met.settled (hc : c.Faithful) (h : c.Met g w) :
    w.seen.Settled fun node => ∃ event, (event, node) ∈ g.edits := by
  intro component hmem t ht p hp hrendered
  have hmem' : component ∈ w.components := hmem
  obtain ⟨id, hid, hget⟩ := Array.getElem_of_mem hmem'
  have hcomponent : w.component id = component :=
    World.component_of_getElem? ((Array.getElem?_eq_getElem hid).trans (congrArg some hget))
  obtain rfl : id = c.id := by
    refine Decidable.byContradiction fun hne => ?_
    rw [← hcomponent, (h.others id hne).1] at ht
    cases ht
  have hfits := h.fits
  rw [hcomponent] at hfits
  have ht' : c.template = some t := hfits.template.symm.trans ht
  obtain ⟨node, hnode⟩ := Option.isSome_iff_exists.mp (hc.placed t ht' p hp hrendered)
  obtain ⟨hthere, hkept, hexact⟩ := h.shown t ht' p hp node hnode
  refine ⟨node, hnode, ?_, ?_⟩
  · rintro raw handle rfl
    rw [hfits.document, hfits.store, hfits.options]
    exact eq_text_of_written hkept
  · intro hsync key value hkey hvalue hexempt
    rw [hfits.options] at hsync
    rw [hfits.store] at hvalue
    rw [hfits.document]
    have hfirm : ¬ c.looseAt g p node := by
      rintro (hloose | hedited)
      · have hnone : w.value? c.store key = none :=
          World.value?_eq_none_iff.mpr ((hc.loose_iff p node).mp hloose hsync key hkey)
        exact Option.some_ne_none _ (hvalue.symm.trans hnone)
      · exact hexempt hedited
    have hcontent := hexact hfirm
    have hlookup : w.lookup c.store key = some value.text := congrArg (Option.map Value.text) hvalue
    cases p with
    | comment raw => cases hnode
    | text raw rendered => cases hkey
    | element tag attributes rendered =>
      obtain ⟨n, hn⟩ := (w.document c.document).exists_node hthere
      rw [Document.content_of_getElem? hn] at hcontent
      show (w.document c.document).value node = _
      unfold Document.value
      rw [((w.document c.document).node_eq_ok_iff).mpr hn]
      show Except.ok (n.content.element?.bind Dom.Element.currentValue?) = _
      rw [hcontent]
      unfold Part.derived
      rw [hkey]
      show Except.ok (some (boundText (w.lookup c.store) c.options.missingKey key)) = _
      unfold boundText
      rw [hlookup]

theorem settled_mono {w : World κ σ} {exempt exempt' : NodeId → Prop} (h : w.Settled exempt)
    (hexempt : ∀ node, exempt node → exempt' node) : w.Settled exempt' := by
  intro component hmem t ht p hp hrendered
  obtain ⟨node, hnode, htext, hvalue⟩ := h component hmem t ht p hp hrendered
  refine ⟨node, hnode, htext, fun hsync key value hkey hv hn => ?_⟩
  exact hvalue hsync key value hkey hv fun he => hn (hexempt node he)

/-- A handler is entered. -/
theorem Met.noteEntry (hc : c.Faithful) (h : c.Met g w) : c.Met g w.noteEntry := by
  apply h.modifyHost
  have hnote := h.noted
  rw [hc.noted] at hnote ⊢
  refine ⟨fun seen hseen => ?_, hnote.2⟩
  rcases List.mem_append.mp hseen with hold | hnew
  · exact hnote.1 seen hold
  · obtain rfl := List.mem_singleton.mp hnew
    exact settled_mono (h.settled hc) fun node ⟨event, hr⟩ => ⟨event, h.editing event node hr⟩

/-- An outermost request returns. -/
theorem Met.noteReturn (hc : c.Faithful) (htemplate : c.template.isSome = true)
    (h : c.Met .idle w) : c.Met .idle w.noteReturn := by
  apply h.modifyHost
  have hnote := h.noted
  rw [hc.noted] at hnote ⊢
  refine ⟨hnote.1, fun seen hseen => ?_⟩
  rcases List.mem_append.mp hseen with hold | hnew
  · exact hnote.2 seen hold
  · obtain rfl := List.mem_singleton.mp hnew
    refine ⟨settled_mono (h.settled hc) fun node ⟨event, hr⟩ => absurd hr List.not_mem_nil, ?_⟩
    show (w.component c.id).template.isSome = true
    rw [h.fits.template]
    exact htemplate

/-- The program writes its own notes. -/
theorem Met.noteOwn (hc : c.Faithful) (h : c.Met g w) (change : σ → σ) :
    c.Met g (w.modifyHost fun diary => { diary with own := change diary.own }) := by
  apply h.modifyHost
  have hnote := h.noted
  rw [hc.noted] at hnote ⊢
  exact hnote

end Contract

/-! ## Programs keep faithful contracts -/

namespace Run

open Contract

variable {c : Contract κ (Diary κ σ)} {g : Stage} {handle : Handle κ (Diary κ σ)}

/-- **Every request keeps the contract** when handlers do. -/
theorem perform_keeps (hc : c.Faithful) (hkeeps : c.Keeps handle) (request : Request κ) :
    Triple (c.Met g) (request.perform handle c.id) (fun _ => c.Met g) c.Fallen := by
  cases request with
  | write key value =>
    have hwrite : Triple (c.Met g) (write handle c.id key value) (fun _ => c.Met g) c.Fallen :=
      write_keeps hkeeps (hc.overwrites key value)
    exact Triple.bind hwrite fun _ => Triple.pure fun _ h => h
  | input node value =>
    refine Triple.get_bind fun w hw => ?_
    rw [hw.fits.document]
    have hedit := edit_keeps (g := g) hc.toLasting hkeeps node value
    exact Triple.bind (hedit.at_world hw) fun _ => Triple.pure fun _ h => h
  | click node =>
    refine Triple.get_bind fun w hw => ?_
    have hclick := click_keeps (g := g) hc.toLasting hkeeps (w.component c.id).document node
    exact Triple.bind (hclick.at_world hw) fun _ => Triple.pure fun _ h => h
  | subscribe key run =>
    refine Triple.get_bind fun w hw => ?_
    rw [hw.fits.store]
    exact Triple.at_world (subscribe_keeps key run) hw
  | unsubscribe s =>
    refine Triple.get_bind fun w hw => ?_
    split
    · rename_i run hs
      refine Triple.bind (Q := fun _ => c.Met g) (Triple.modify ?_) fun _ => Triple.pure fun _ h => h
      rintro w' rfl
      exact hw.unsubscribe hs
    · exact Triple.at_world (Triple.pure fun _ h => h) hw

/-- **A behavior keeps the contract** when the handlers that its requests reach do. -/
theorem behavior_keeps (hc : c.Faithful) (hkeeps : c.Keeps handle) (behavior : Behavior κ σ) :
    Triple (c.Met g) (behavior.run handle c.id) (fun _ => c.Met g) c.Fallen := by
  induction behavior with
  | done => exact Triple.pure fun _ h => h
  | look next ih =>
    refine Triple.get_bind fun w hw => ?_
    exact Triple.at_world (ih w.seen) hw
  | note change next ih =>
    exact Triple.bind (Triple.modify fun _ h => h.noteOwn hc change) fun _ => ih
  | ask request next ih =>
    exact Triple.bind (perform_keeps hc hkeeps request) fun answer => ih answer

/-- **A program of any depth keeps the contract.** -/
theorem handle_keeps (hc : c.Faithful) (program : Program κ σ) (depth : Nat) :
    c.Keeps (program.handle c.id depth) := by
  induction depth with
  | zero => exact fun g run occasion => Triple.throw fun _ h => h.fallen hc.toLasting
  | succ depth ih =>
    intro g run occasion
    refine Triple.bind (Q := fun _ => c.Met g) (Triple.modify fun _ h => h.noteEntry hc) fun _ => ?_
    exact behavior_keeps hc ih (program run occasion)

/-- Outermost requests keep the contract. -/
theorem performAll_keeps (hc : c.Faithful) (hkeeps : c.Keeps handle)
    (htemplate : c.template.isSome = true) (requests : List (Request κ)) :
    Triple (c.Met .idle) (Request.performAll handle c.id requests) (fun _ => c.Met .idle)
      c.Fallen := by
  induction requests with
  | nil => exact Triple.pure fun _ h => h
  | cons request rest ih =>
    unfold Request.performAll
    refine Triple.bind (Q := fun _ => c.Met .idle)
      (Triple.discard (perform_keeps hc hkeeps request) fun _ _ h => h) fun _ => ?_
    exact Triple.bind (Triple.modify fun _ h => h.noteReturn hc htemplate) fun _ => ih

end Run

/-! ## The contract of a component in a session -/

namespace Contract

/-- What is agreed about a component that is not rendered yet. -/
def faithfulTerms (w : World κ (Diary κ σ)) (config : Config κ) :
    Terms κ (Diary κ σ) config.options where
  loose p _ := config.options.syncInputs = true →
    ∀ key, p.modelKey? = some key → (w.makeStore config.data).1.cell? key = none
  frame _ := True
  values _ := True
  note := Diary.Settled w.components.size
  failed := Diary.Settled w.components.size
  loose_of_syncInputs h _ _ hsync := absurd (h.symm.trans hsync) Bool.false_ne_true

theorem faithful_made (w : World κ (Diary κ σ)) (document : DocumentId) (root : NodeId)
    (config : Config κ) : (made w document root config (faithfulTerms w config)).Faithful where
  fails _ h := h
  overwrites _ _ _ h := h
  hears _ _ h _ := h
  carries t d h := by cases h
  loose_iff _ _ := Iff.rfl
  placed t h := by cases h
  noted := rfl
  failing := rfl

/-- **The rendered nodes carry edits** to the keys that they are bound to. -/
def Carries (id : ComponentId) (t : Template) (d : Document (Action κ)) : Prop :=
  ∀ p ∈ t.preorder, ∀ node, p.rendered = some node → ∀ key, p.modelKey? = some key →
    Action.model id key ∈ (d.listenersFor node "input").map (·.action)

theorem carries_of_sameListeners {id : ComponentId} {t : Template} {d e : Document (Action κ)}
    (h : Carries id t d) (he : SameListeners d e) : Carries id t e := by
  intro p hp node hnode key hkey
  rw [he.listenersFor]
  exact h p hp node hnode key hkey

theorem mem_numbered {α : Type} {type : String} {action : α} {listeners : List (String × α)}
    (h : (type, action) ∈ listeners) (first : Nat) :
    action ∈ ((Document.numbered first listeners).filter (·.type == type)).map Listener.action := by
  induction listeners generalizing first with
  | nil => cases h
  | cons listener rest ih =>
    obtain ⟨type', action'⟩ := listener
    unfold Document.numbered
    rcases List.mem_cons.mp h with hfirst | hrest
    · cases hfirst
      refine List.mem_map.mpr ⟨⟨first, type, action⟩, ?_, rfl⟩
      exact List.mem_filter.mpr ⟨List.mem_cons_self, beq_self_eq_true type⟩
    · obtain ⟨listener, hlistener, haction⟩ := List.mem_map.mp (ih hrest (first + 1))
      refine List.mem_map.mpr ⟨listener, ?_, haction⟩
      obtain ⟨hmem, htype⟩ := List.mem_filter.mp hlistener
      exact List.mem_filter.mpr ⟨List.mem_cons_of_mem _ hmem, htype⟩

/-- **Mounting gives every bound node its listener.** -/
theorem carries_mount {id : ComponentId} {lookup : Interpolation.Lookup}
    {missing : Interpolation.MissingKey} {d : Document (Action κ)} {root : NodeId} {t : Template}
    (hbare : t.Bare) (h : (t.mount ⟨lookup, missing, Component.binder id⟩ d root).fault = none) :
    Carries id (t.mount ⟨lookup, missing, Component.binder id⟩ d root).template
      (t.mount ⟨lookup, missing, Component.binder id⟩ d root).document := by
  intro p hp node hnode key hkey
  cases p with
  | comment raw => cases hnode
  | text raw rendered => cases hkey
  | element tag attributes rendered =>
    obtain ⟨node', seed, first, hnode', hseed, hlisteners⟩ :=
      (Template.mount_displays hbare h).2 _ hp rfl
    obtain rfl := Option.some.inj (hnode.symm.trans hnode')
    cases hseed
    unfold Document.listeners at hlisteners
    unfold Document.listenersFor
    rw [hlisteners]
    refine mem_numbered (List.mem_append_right _ ?_) first
    rw [hkey]
    exact List.mem_cons_self

variable {c : Contract κ (Diary κ σ)}

/-- **A faithful contract stays faithful** when a template is rendered. -/
theorem faithful_withTemplate (hc : c.Faithful) {t : Template} (hnodup : t.handles.Nodup)
    (hplaced : ∀ p ∈ t.preorder, p.isRendered = true → p.rendered.isSome = true) :
    (c.withTemplate t hnodup (Carries c.id t) fun _ _ h hsame =>
      carries_of_sameListeners h hsame.listeners).Faithful where
  fails := hc.fails
  overwrites := hc.overwrites
  hears d e h hsame := carries_of_sameListeners h hsame
  carries := by
    rintro _ d ⟨⟩ hd p hp node hnode hfirm
    have hbound := fun h => hfirm ((hc.loose_iff p node).mpr h)
    obtain ⟨hsync, hbound⟩ := Classical.not_forall.mp hbound
    obtain ⟨key, hbound⟩ := Classical.not_forall.mp hbound
    obtain ⟨hkey, hdeclared⟩ := Classical.not_forall.mp hbound
    exact ⟨key, hkey, hdeclared, hsync, hd p hp node hnode key hkey⟩
  loose_iff := hc.loose_iff
  placed := by
    rintro _ ⟨⟩
    exact hplaced
  noted := hc.noted
  failing := hc.failing

end Contract

end BoundView
