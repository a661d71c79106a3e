import BoundView.Proofs.World.Contract

/-!
# Writes keep the contract

A write stores the value, and the first subscriber whose turn comes is the one that patches. So the
world is stale at the key from the write to the end of the first turn, and no handler runs meanwhile.
All later turns start from a kept contract and leave one, whatever they write themselves, since each
of their own writes is patched in the same way before anyone else hears of it.

Main statements: `refresh_spec`, `react_keeps`, `notify_keeps`, `write_spec`.
-/

namespace BoundView

open BoundView.Interpolation (Lookup)

variable {κ σ : Type} {c : Contract κ σ} {g g' : Stage} {handle : Handle κ σ}

namespace Contract

/-- **Edits may arrive through a key**: what was being edited is edited still, or it is bound to the
key and follows its writes. -/
structure Arrives (c : Contract κ σ) (g g' : Stage) (key : String) : Prop where
  settles : g.Settles g'
  loose : ∀ t, c.template = some t → ∀ p ∈ t.preorder, ∀ node, p.rendered = some node →
    c.looseAt g p node →
      c.looseAt g' p node ∨ c.options.syncInputs = true ∧ p.modelKey? = some key

theorem Arrives.refl (c : Contract κ σ) (g : Stage) (key : String) : c.Arrives g g key :=
  ⟨.refl g, fun _ _ _ _ _ _ h => .inl h⟩

theorem Arrives.await {key : String} (h : c.Arrives g g' key) (ss : List SubscriberId) :
    c.Arrives (g.await ss) (g'.await ss) key := ⟨h.settles.await ss, h.loose⟩

/-- **Running a handler keeps the contract**, at every stage. -/
def Keeps (c : Contract κ σ) (handle : Handle κ σ) : Prop :=
  ∀ g run occasion, Run.Triple (c.Met g) (handle run occasion) (fun _ => c.Met g) c.Fallen

end Contract

namespace Run

/-- **Bringing a stale key up to date** restores the contract. -/
theorem refresh_spec {key : String} (harrives : c.Arrives g g' key) :
    Triple (c.Stale g key) (refresh c.id key) (fun _ => c.Met g') c.Fallen := by
  unfold refresh
  refine Triple.get_bind fun w hw => ?_
  obtain ⟨_, _, hfirst⟩ := id hw
  have hfits := hfirst.fits
  dsimp only
  cases htemplate : (w.component c.id).template with
  | none =>
    refine Triple.pure fun w' hw' => ?_
    rw [hw']
    refine ⟨hfirst.toWired.settles harrives.settles, fun t ht => ?_, hfirst.framed, hfirst.valued⟩
    rw [← hfits.template, htemplate] at ht
    cases ht
  | some t =>
    have ht : c.template = some t := hfits.template.symm.trans htemplate
    refine Triple.bind (Q := fun _ => c.Stale g key) (Triple.modify ?_) fun _ => ?_
    · rintro w' rfl
      obtain ⟨lookup, hagree, h⟩ := hw
      exact ⟨lookup, hagree, h.modifyComponent rfl rfl (fun _ hd => { hd with }) h.held⟩
    refine Triple.bind (Q := fun _ => c.Stale g key) (Triple.modify ?_) fun _ => ?_
    · rintro w' ⟨lookup, hagree, h⟩
      exact ⟨lookup, hagree, h.tell _⟩
    refine Triple.get_bind fun w' hw' => ?_
    obtain ⟨lookup, hagree, h⟩ := hw'
    unfold World.patched
    rw [hfits.store, hfits.options, hfits.document]
    obtain ⟨hfault, hsame, hdisplays⟩ :=
      (h.shown t ht).patch (c.nodup t ht) hagree
        (fun hsync p node => .inl (c.loose_of_syncInputs hsync p node)) (harrives.loose t ht)
    refine Triple.bind (Q := fun _ => c.Met g') (Triple.modify ?_) fun _ => ?_
    · rintro w'' rfl
      refine h.setDocument harrives.settles ?_ (c.frame_of_sameOutside t _ _ ht h.framed hsame)
      intro t' ht'
      obtain rfl := Option.some.inj (ht.symm.trans ht')
      exact hdisplays
    refine Triple.bind (Q := fun _ => c.Met g') (Triple.modify fun _ h => h.tell _) fun _ => ?_
    rw [hfault]
    refine Triple.bind (Q := fun _ => c.Met g') (Triple.modify fun _ h => h.tell _) fun _ => ?_
    exact Triple.pure fun _ h => h

/-- **The turn of the first subscriber** brings the key up to date. -/
theorem react_first {key : String} (harrives : c.Arrives g g' key) {s : SubscriberId} (value : Value) :
    Triple (fun w => c.Stale g key w ∧ w.reaction? s = some (.patch c.id key))
      (react handle s value) (fun _ => c.Met g') c.Fallen := by
  unfold react
  refine Triple.get_bind fun w ⟨hw, hs⟩ => ?_
  rw [show (w.subscribers[s]?).map Subscriber.reaction = _ from hs]
  refine Triple.get_bind fun w' hw' => ?_
  have halive : w'.isAlive c.id = true := by
    obtain ⟨_, _, h⟩ := hw
    rw [hw']
    exact decide_eq_true (Nat.lt_of_le_of_lt (Nat.zero_le _) h.held)
  rw [if_pos halive]
  refine Triple.discard (Triple.at_world (refresh_spec harrives) ?_) fun _ _ h => h
  rw [hw']
  exact hw

/-- **Any subscriber's turn** keeps the contract. -/
theorem react_keeps (hkeeps : c.Keeps handle) (s : SubscriberId) (value : Value) :
    Triple (c.Met g) (react handle s value) (fun _ => c.Met g) c.Fallen := by
  unfold react
  refine Triple.get_bind fun w hw => ?_
  cases (w.subscribers[s]?).map Subscriber.reaction with
  | none => exact Triple.at_world (Triple.pure fun _ h => h) hw
  | some reaction =>
    cases reaction with
    | handler run => exact Triple.at_world (hkeeps g run (.write value)) hw
    | patch id key =>
      refine Triple.get_bind fun w' hw' => ?_
      subst hw'
      by_cases hid : id = c.id
      · subst hid
        split
        · refine Triple.discard (Triple.at_world (refresh_spec (.refl c g key)) ?_) fun _ _ h => h
          exact hw.stale key
        · exact Triple.at_world (Triple.pure fun _ h => h) hw
      · have hdead : w'.isAlive id = false := by
          unfold World.isAlive
          rw [(hw.others id hid).2]
          rfl
        rw [hdead, if_neg Bool.false_ne_true]
        exact Triple.at_world (Triple.pure fun _ h => h) hw

/-! ## Rounds -/

/-- The first turn of a round, and then the rest of the round. -/
theorem notify_cons {P : World κ σ → Prop} {turn : SubscriberId → Run κ σ Unit} {s : SubscriberId}
    {rest : List SubscriberId}
    (hfirst : Triple P (turn s) (fun _ => c.Met (g.await (s :: rest))) c.Fallen)
    (hrest : Triple (c.Met (g.await rest)) (notify turn rest) (fun _ => c.Met g) c.Fallen) :
    Triple P (notify turn (s :: rest)) (fun _ => c.Met g) c.Fallen := by
  unfold notify
  refine Triple.bind (Triple.tryCatch hfirst fun f => ?_) fun _ => ?_
  · refine Triple.bind (Q := fun _ => c.Fallen) (Triple.modify fun w hw => ?_) fun _ => ?_
    · unfold Contract.Fallen
      rw [World.host_foldl_releaseSubscriber]
      exact hw
    · exact Triple.throw fun _ h => h
  · exact Triple.bind (Triple.modify fun _ h => h.releaseSubscriber) fun _ => hrest

/-- **A round keeps the contract** when every turn does. -/
theorem notify_keeps {turn : SubscriberId → Run κ σ Unit}
    (hturn : ∀ g s, Triple (c.Met g) (turn s) (fun _ => c.Met g) c.Fallen)
    (ss : List SubscriberId) (g : Stage) :
    Triple (c.Met (g.await ss)) (notify turn ss) (fun _ => c.Met g) c.Fallen := by
  induction ss with
  | nil => exact Triple.pure fun _ h => h
  | cons s ss ih => exact notify_cons (hturn _ s) ih

/-! ## Writes -/

section

variable {values : (String → Option Value) → Prop} {key : String} {value : Value}

/-- **A write to a cell** keeps the contract, with the new values; edits may arrive through its key. -/
theorem set_spec (hkeeps : (c.withValues values).Keeps handle) {cell : CellId}
    (hcell : c.store.cell? key = some cell) (harrives : c.Arrives g g' key)
    (hvalues : ∀ f, c.values f → values (overwritten f key value)) :
    Triple (c.Met g) (set handle cell value) (fun _ => (c.withValues values).Met g') c.Fallen := by
  have harrives' : (c.withValues values).Arrives g g' key := ⟨harrives.settles, harrives.loose⟩
  unfold set writeCell
  refine Triple.bind (Q := fun _ => (c.withValues values).Stale g key)
    (Triple.modify fun w hw => hw.storeValue hcell hvalues) fun _ => ?_
  refine Triple.get_bind fun w hw => ?_
  obtain ⟨lookup, hagree, h⟩ := hw
  obtain ⟨_, s, rest, hsubscribers, hs⟩ := h.watched key cell hcell
  dsimp only
  rw [hsubscribers]
  refine Triple.bind (Q := fun _ w => (c.withValues values).Stale (g.await (s :: rest)) key w ∧
    w.reaction? s = some (.patch c.id key)) (Triple.modify ?_) fun _ => ?_
  · rintro w' rfl
    have hreaction := World.reaction?_foldl_holdSubscriber (s :: rest) w' s
    refine ⟨⟨lookup, fun k hk => ?_, h.holdSubscribers _⟩, hreaction.trans hs⟩
    rw [← hagree k hk]
    exact World.lookup_congr (congrFun (World.value?_foldl_holdSubscriber (s :: rest) w' c.store) k)
  · exact notify_cons (react_first (harrives'.await (s :: rest)) value)
      (notify_keeps (fun g s => react_keeps hkeeps s value) rest g')

/-- A write to a key that is not declared changes nothing. -/
theorem valued_of_undeclared (hvalues : ∀ f, c.values f → values (overwritten f key value))
    {w : World κ σ} (h : c.Met g w) (hkey : c.store.cell? key = none) :
    (c.withValues values).Met g w := by
  have hvalue := hvalues _ h.valued
  rw [overwritten_of_none (World.value?_eq_none_iff.mpr hkey)] at hvalue
  exact { h with fits := { h.fits with }, valued := hvalue }

/-- **A write to a key keeps the contract**, with the new values. -/
theorem write_keeps (hkeeps : (c.withValues values).Keeps handle)
    (hvalues : ∀ f, c.values f → values (overwritten f key value)) :
    Triple (c.Met g) (write handle c.id key value) (fun _ => (c.withValues values).Met g)
      c.Fallen := by
  unfold write setKey
  refine Triple.get_bind fun w hw => ?_
  rw [hw.fits.store]
  cases hcell : c.store.cell? key with
  | none =>
    refine Triple.pure fun w' hw' => ?_
    rw [hw']
    exact valued_of_undeclared hvalues hw hcell
  | some cell =>
    have hset := set_spec hkeeps hcell (.refl c g key) hvalues
    exact Triple.bind (hset.at_world hw) fun _ => Triple.pure fun _ h => h

/-- **A write to a declared key lets edits arrive.** -/
theorem write_arrives (hkeeps : c.Keeps handle) (hdeclared : c.store.cell? key ≠ none)
    (harrives : c.Arrives g g' key) (hvalues : ∀ f, c.values f → c.values (overwritten f key value)) :
    Triple (c.Met g) (write handle c.id key value) (fun _ => c.Met g') c.Fallen := by
  obtain ⟨cell, hcell⟩ := Option.ne_none_iff_exists'.mp hdeclared
  unfold write setKey
  refine Triple.get_bind fun w hw => ?_
  rw [hw.fits.store, hcell]
  have hset : Triple (c.Met g) (set handle cell value) (fun _ => c.Met g') c.Fallen :=
    set_spec hkeeps hcell harrives hvalues
  exact Triple.bind (hset.at_world hw) fun _ => Triple.pure fun _ h => h

end

/-- **A new subscriber** runs a handler; it comes after the one that patches. -/
theorem subscribe_keeps (key : String) (run : κ) :
    Triple (c.Met g) (subscribeKey c.store key (.handler run)) (fun _ => c.Met g) c.Fallen := by
  unfold subscribeKey
  cases hcell : c.store.cell? key with
  | none => exact Triple.pure fun _ h => h
  | some cell =>
    unfold subscribe
    refine Triple.map (Q := fun _ => c.Met g) ?_ fun _ _ h => h
    refine Triple.get_bind fun w hw => ?_
    refine Triple.bind (Q := fun _ => c.Met g) (Triple.modify ?_) fun _ => Triple.pure fun _ h => h
    rintro w' rfl
    exact hw.subscribe hcell run

end Run

end BoundView
