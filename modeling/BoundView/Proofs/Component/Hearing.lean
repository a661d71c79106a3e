import BoundView.Proofs.Component.Page
import BoundView.Proofs.Rendering.LiveValue

/-!
# Events that are heard while values are stored

A listener on the way of an input event stores the live value of the target under a key. Then there is
a round of patches, and a patch may assign live values, that of the target among them. Who hears a key
patches for this key, so it assigns none but the value that was stored just now: the target keeps its
live value, and the next listener on the way reads the same.

Main statement: `write_hearing`.
-/

namespace BoundView

open BoundView.Dom (Document NodeId)

variable {κ σ : Type}

/-! ## Values -/

/-- The values of keys after some of them were given one value; those that are not declared stay so. -/
def stored (values : String → Option Value) (keys : List String) (value : Value) :
    String → Option Value :=
  fun key => if key ∈ keys then (values key).map fun _ => value else values key

section

variable {values : String → Option Value} {value : Value}

theorem stored_nil (values : String → Option Value) (value : Value) :
    stored values [] value = values :=
  funext fun _ => if_neg List.not_mem_nil

theorem stored_singleton (key : String) : stored values [key] value = overwritten values key value := by
  funext k
  unfold stored overwritten
  by_cases hk : k = key
  · rw [if_pos (List.mem_singleton.mpr hk), if_pos hk]
  · rw [if_neg fun h => hk (List.mem_singleton.mp h), if_neg hk]

theorem stored_append (keys keys' : List String) :
    stored values (keys ++ keys') value = stored (stored values keys value) keys' value := by
  funext key
  unfold stored
  by_cases h : key ∈ keys
  · rw [if_pos (List.mem_append_left _ h), if_pos h, Option.map_map]
    split <;> rfl
  · rw [if_neg h]
    by_cases h' : key ∈ keys'
    · rw [if_pos (List.mem_append_right _ h'), if_pos h']
    · rw [if_neg fun hmem => (List.mem_append.mp hmem).elim h h', if_neg h']

end

/-! ## An event on its way -/

/-- **An input event**: its number, its target, and the live value of its target. -/
structure Arrival where
  event : EventId
  target : NodeId
  text : String

/-- **The event is on its way**, and its target has kept its live value. -/
structure Hearing (document : DocumentId) (a : Arrival) (w : World κ σ) : Prop where
  there : ∃ e, w.events[a.event]? = some e ∧ e.type = "input" ∧ e.target = a.target ∧
    e.stopped = false
  live : (w.document document).liveText a.target = a.text

variable {c : Contract κ σ} {g : Stage} {a : Arrival} {w : World κ σ}

/-- What leaves events and documents alone does not disturb the event. -/
theorem Hearing.congr {w' : World κ σ} {document : DocumentId} (h : Hearing document a w)
    (hevents : w'.events = w.events) (hdocuments : w'.documents = w.documents) :
    Hearing document a w' := by
  obtain ⟨hthere, hlive⟩ := h
  unfold World.document at hlive
  refine ⟨?_, ?_⟩
  · rw [hevents]
    exact hthere
  · unfold World.document
    rw [hdocuments]
    exact hlive

theorem Hearing.event (document : DocumentId) (h : Hearing document a w) :
    (w.event a.event).type = "input" ∧ (w.event a.event).target = a.target ∧
      (w.event a.event).stopped = false := by
  obtain ⟨e, he, hrest⟩ := h.there
  rw [World.event_of_getElem? he]
  exact hrest

/-! ## A round about the key that was stored -/

/-- **What each turn of a round finds**: the component as it is agreed, the key with the live value of
the target, subscribers that patch for this key if they patch, and the event on its way. -/
structure Round (c : Contract κ σ) (a : Arrival) (key : String) (round : List SubscriberId)
    (w : World κ σ) : Prop extends Hearing c.document a w where
  component_lt : c.id < w.components.size
  fits : c.Fits (w.component c.id)
  others : ∀ id, id ≠ c.id → (w.component id).template = none
  document_lt : c.document < w.documents.size
  value : w.value? c.store key = some (.str a.text)
  suited : ∀ s ∈ round, ∃ reaction, w.reaction? s = some reaction ∧ reaction.Suits key

namespace Round

variable {key : String} {round : List SubscriberId}

theorem modifyHolders (h : Round c a key round w) (s : SubscriberId) (f : Nat → Nat) :
    Round c a key round (w.modifyHolders s f) := by
  refine { h with suited := fun t ht => ?_ }
  obtain ⟨reaction, hreaction, hsuits⟩ := h.suited t ht
  exact ⟨reaction, (w.reaction?_modifyHolders s t f).trans hreaction, hsuits⟩

theorem holdSubscribers (h : Round c a key round w) (ss : List SubscriberId) :
    Round c a key round (ss.foldl World.holdSubscriber w) := by
  induction ss generalizing w with
  | nil => exact h
  | cons s ss ih => exact ih (h.modifyHolders s (· + 1))

theorem modifyComponent (h : Round c a key round w) {f : Component κ → Component κ}
    (hf : ∀ d, c.Fits d → c.Fits (f d)) : Round c a key round (w.modifyComponent c.id f) := by
  refine { h with component_lt := ?_, fits := ?_, others := fun id hid => ?_ }
  · show c.id < (Array.modify w.components _ _).size
    rw [Array.size_modify]
    exact h.component_lt
  · rw [World.component_modifyComponent_self h.component_lt]
    exact hf _ h.fits
  · rw [World.component_modifyComponent_of_ne h.component_lt hid]
    exact h.others id hid

theorem setDocument (h : Round c a key round w) {d : Document (Action κ)}
    (hlive : d.liveText a.target = a.text) :
    Round c a key round (w.setDocument c.document d) := by
  refine { h with live := ?_, document_lt := ?_ }
  · rw [World.document_setDocument h.document_lt]
    exact hlive
  · show c.document < (Array.setIfInBounds w.documents _ _).size
    rw [Array.size_setIfInBounds]
    exact h.document_lt

/-- **Patching for the key** assigns the live value of the target, if it assigns any. -/
theorem liveText_patched (h : Round c a key round w) (t : Template) {d : Component κ}
    (hd : c.Fits d) : (w.patched d t key).document.liveText a.target = a.text := by
  unfold World.patched
  rw [hd.document]
  refine liveText_patch h.live fun k hk => ?_
  obtain rfl := Template.eq_of_input_mem_affected hk
  unfold boundText World.lookup
  rw [hd.store, h.value]
  rfl

end Round

namespace Run

variable {key : String} {round : List SubscriberId}

theorem refresh_round (id : ComponentId) :
    Triple (Round c a key round) (refresh id key) (fun _ => Round c a key round) fun _ => True := by
  unfold refresh
  refine Triple.get_bind fun w hw => ?_
  dsimp only
  cases htemplate : (w.component id).template with
  | none => exact Triple.at_world (Triple.pure fun _ h => h) hw
  | some t =>
    obtain rfl : id = c.id := by
      refine Decidable.byContradiction fun hid => ?_
      rw [hw.others id hid] at htemplate
      cases htemplate
    refine Triple.bind (Q := fun _ => Round c a key round) (Triple.modify ?_) fun _ => ?_
    · rintro w' rfl
      exact hw.modifyComponent fun _ hd => { hd with }
    refine Triple.bind (Q := fun _ => Round c a key round) (Triple.modify fun _ h => { h with })
      fun _ => ?_
    refine Triple.get_bind fun w' hw' => ?_
    rw [hw.fits.document]
    refine Triple.bind (Q := fun _ => Round c a key round) (Triple.modify ?_) fun _ => ?_
    · rintro w'' rfl
      exact hw'.setDocument (hw'.liveText_patched t hw.fits)
    refine Triple.bind (Q := fun _ => Round c a key round) (Triple.modify fun _ h => { h with })
      fun _ => ?_
    cases (w'.patched (w.component c.id) t key).fault with
    | some f => exact Triple.throw fun _ _ => trivial
    | none =>
      refine Triple.bind (Q := fun _ => Round c a key round) (Triple.modify fun _ h => { h with })
        fun _ => ?_
      exact Triple.pure fun _ h => h

/-- **A turn of a round** in a world without handlers. -/
theorem react_round {s : SubscriberId} (hs : s ∈ round) (value : Value) :
    Triple (Round c a key round) (react quiet s value) (fun _ => Round c a key round)
      fun _ => True := by
  unfold react
  refine Triple.get_bind fun w hw => ?_
  obtain ⟨reaction, hreaction, hsuits⟩ := hw.suited s hs
  rw [show (w.subscribers[s]?).map Subscriber.reaction = _ from hreaction]
  cases reaction with
  | handler run => exact Triple.at_world (Triple.pure fun _ h => h) hw
  | patch id k =>
    obtain rfl := hsuits id k rfl
    refine Triple.get_bind fun w' hw' => ?_
    subst hw'
    split
    · exact Triple.at_world (Triple.discard (refresh_round id) fun _ _ h => h) hw
    · exact Triple.at_world (Triple.pure fun _ h => h) hw

theorem notify_round (value : Value) {ss : List SubscriberId} (hss : ∀ s ∈ ss, s ∈ round) :
    Triple (Round c a key round) (notify (react quiet · value) ss) (fun _ => Round c a key round)
      fun _ => True := by
  induction ss with
  | nil => exact Triple.pure fun _ h => h
  | cons s ss ih =>
    unfold notify
    refine Triple.bind (Triple.tryCatch (react_round (hss s List.mem_cons_self) value) fun f => ?_)
      fun _ => ?_
    · exact Triple.bind (Q := fun _ _ => True) (Triple.modify fun _ _ => trivial) fun _ =>
        Triple.throw fun _ _ => trivial
    · exact Triple.bind (Q := fun _ => Round c a key round)
        (Triple.modify fun _ h => h.modifyHolders s _)
        fun _ => ih fun t ht => hss t (List.mem_cons_of_mem _ ht)

/-- **Storing the live value of the target** leaves it there, under any key. -/
theorem write_hearing (key : String) :
    Triple (fun w => c.Met g w ∧ Hearing c.document a w) (write quiet c.id key (.str a.text))
      (fun _ => Hearing c.document a) fun _ => True := by
  unfold write setKey
  refine Triple.get_bind fun w ⟨hw, hhearing⟩ => ?_
  rw [hw.fits.store]
  cases hcell : c.store.cell? key with
  | none => exact Triple.at_world (Triple.pure fun _ h => h) hhearing
  | some cell =>
    have hlt := (hw.watched key cell hcell).1
    have hround : Round c a key ((w.storeValue cell (.str a.text)).cell cell).subscribers
        (w.storeValue cell (.str a.text)) := by
      refine ⟨hhearing.congr rfl rfl, hw.component_lt, hw.fits, fun id hid => (hw.others id hid).1,
        hw.document_lt, ?_, ?_⟩
      · rw [World.value?_storeValue c.separate hcell hlt]
        unfold overwritten World.value?
        rw [if_pos rfl, hcell]
        rfl
      · intro s hs
        rw [World.cell_storeValue hlt, if_pos rfl] at hs
        exact hw.tuned key cell hcell s (List.mem_filter.mp hs).1
    unfold set writeCell
    refine Triple.bind (Q := fun _ => Hearing c.document a) ?_ fun _ => Triple.pure fun _ h => h
    refine Triple.bind (Q := fun _ w' => w' = w.storeValue cell (.str a.text))
      (Triple.modify fun w' he => by rw [he]) fun _ => ?_
    refine Triple.get_bind fun w' he => ?_
    subst he
    refine Triple.bind (Q := fun _ => Round c a key _) (Triple.modify ?_) fun _ =>
      (notify_round (.str a.text) fun s hs => hs).weaken (fun _ h => h) (fun _ _ h => h.toHearing)
        fun _ h => h
    rintro w' rfl
    exact hround.holdSubscribers _

end Run

end BoundView
