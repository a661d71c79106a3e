import BoundView.Proofs.Component.Program
import BoundView.Proofs.World.Declaring

/-!
# Programs on a store and the record of their calls

A program writes the keys of one store, subscribes callbacks to them and drops the guards that it was
given, and its callbacks do the same, nested in one another to any depth. It may name keys that the
store does not have. What a callback does is written down as a tree: it looks at all there is, keeps a
state of its own, fails, and asks for one request after the other, where each may depend on what it has
seen and on what earlier requests have answered.

A record is kept of the calls: of every write when it is called, of the subscriptions that were made and
of those that were dropped, of the writes that have not returned, and of the turns of callbacks.
-/

namespace BoundView.Keyed

variable {κ σ : Type}

/-! ## Programs -/

/-- **A callback**: what it runs, with the key that it hears. -/
structure Callback (κ : Type) where
  run : κ
  key : String

/-- **A turn of a callback**: the key that it hears, the value that it is given, and the write that was
called last and has not returned. -/
structure Turn where
  key : String
  value : Value
  within : Option (String × Value)
  deriving DecidableEq

/-- **The record of a run**, with the state of the program. -/
structure Record (σ : Type) where
  own : σ
  /-- All writes, in the order in which they were called. -/
  writes : List (String × Value)
  /-- All subscriptions, oldest first. -/
  subscribed : List (String × SubscriberId)
  /-- Those whose guards were dropped. -/
  dropped : List SubscriberId
  /-- The writes that have not returned, innermost first. -/
  running : List (String × Value)
  turns : List Turn

/-- The record of a run that begins. -/
def Record.opening (own : σ) : Record σ := ⟨own, [], [], [], [], []⟩

/-- **What may be asked of a store.** -/
inductive Request (κ : Type) where
  | set (key : String) (value : Value)
  | subscribe (key : String) (run : κ)
  /-- Drops the guard of a subscriber. -/
  | drop (s : SubscriberId)

/-- **What a request answers.** -/
inductive Answer where
  | accepted
  | subscribed (s : SubscriberId)
  | refused (e : Component.Error)
  /-- A callback has failed. -/
  | failed (f : Fault)

/-- **What a callback does.** -/
inductive Behavior (κ σ : Type) where
  | done
  | fail (f : Fault)
  | look (next : World (Callback κ) (Record σ) → Behavior κ σ)
  | note (change : σ → σ) (next : Behavior κ σ)
  | ask (request : Request κ) (next : Answer → Behavior κ σ)

/-- **What callbacks do**, by what they run and by the value that they are given. -/
abbrev Program (κ σ : Type) := κ → Value → Behavior κ σ

/-- The activities of a program. -/
abbrev Activity (κ σ α : Type) := Run (Callback κ) (Diary (Callback κ) (Record σ)) α

/-! ## Runs -/

/-- Goes on with the record. -/
def record (f : Record σ → Record σ) : Activity κ σ Unit :=
  modify (·.modifyHost fun diary => { diary with own := f diary.own })

section

variable (store : Store) (handle : Handle (Callback κ) (Diary (Callback κ) (Record σ)))

/-- Writes a key. -/
def set (key : String) (value : Value) : Activity κ σ Answer := do
  record fun r =>
    { r with writes := r.writes ++ [(key, value)], running := (key, value) :: r.running }
  let answer ←
    try
      match ← Run.setKey handle store key value with
      | .ok () => pure Answer.accepted
      | .error e => pure (Answer.refused e)
    catch f => pure (Answer.failed f)
  record fun r => { r with running := r.running.tail }
  pure answer

/-- Subscribes to a key; the answer is the guard. -/
def subscribe (key : String) (run : κ) : Activity κ σ Answer := do
  match ← Run.subscribeKey store key (.handler ⟨run, key⟩) with
  | .ok s =>
    record fun r => { r with subscribed := r.subscribed ++ [(key, s)] }
    pure (.subscribed s)
  | .error e => pure (.refused e)

/-- Drops a guard, once. -/
def drop (s : SubscriberId) : Activity κ σ Answer := do
  let r := (← get).host.own
  if s ∈ r.subscribed.map Prod.snd ∧ s ∉ r.dropped then
    modify (·.releaseSubscriber s)
    record fun r => { r with dropped := r.dropped ++ [s] }
  pure .accepted

/-- **A request.** -/
def Request.perform : Request κ → Activity κ σ Answer
  | .set key value => Keyed.set store handle key value
  | .subscribe key run => Keyed.subscribe store key run
  | .drop s => Keyed.drop s

/-- **Runs a behavior**, given how to run the callbacks that its writes reach. -/
def Behavior.run : Behavior κ σ → Activity κ σ Unit
  | .done => pure ()
  | .fail f => throw f
  | .look next => do run (next (← get).seen)
  | .note change next => do
    record fun r => { r with own := change r.own }
    run next
  | .ask request next => do
    let answer ← request.perform store handle
    modify World.noteReturn
    run (next answer)

end

/-- **Runs callbacks**, nested up to a given depth. -/
def Program.handle (program : Program κ σ) (store : Store) :
    Nat → Handle (Callback κ) (Diary (Callback κ) (Record σ))
  | 0 => fun _ _ => throw .exhausted
  | depth + 1 => fun callback occasion =>
    match occasion with
    | .write value => do
      record fun r => { r with turns := r.turns ++ [⟨callback.key, value, r.running.head?⟩] }
      modify World.noteEntry
      (program callback.run value).run store (program.handle store depth)
    | _ => pure ()

/-- The world in which a run on a store begins. -/
def begun (w : World (Callback κ) (Diary (Callback κ) (Record σ))) (own : σ) :
    World (Callback κ) (Diary (Callback κ) (Record σ)) :=
  w.modifyHost fun _ => ⟨.opening own, [], []⟩

/-- **The worlds of a run** on a store: the one in which it begins, those in which callbacks are entered,
those that requests leave behind, and the one that the run leaves, however it ends. -/
def Program.worlds (program : Program κ σ) (depth : Nat) (main : Behavior κ σ) (store : Store)
    (w : World (Callback κ) (Diary (Callback κ) (Record σ))) (own : σ) :
    List (World (Callback κ) (Record σ)) :=
  let last := Run.left (main.run store (program.handle store depth)) (begun w own)
  (begun w own).seen :: last.seen :: (last.host.entered ++ last.host.returned)

/-! ## What the record says -/

/-- **The last entry of a key**, where the key is one of the data's. -/
def Record.value? (r : Record σ) (data : List (String × Value)) (key : String) : Option Value :=
  if key ∈ data.map Prod.fst then (data ++ r.writes).reverse.lookup key else none

/-- **Who hears a key**: those that have subscribed to it and not been dropped, oldest first. -/
def Record.hearing (r : Record σ) (key : String) : List SubscriberId :=
  ((r.subscribed.filter (·.1 = key)).map Prod.snd).filter (· ∉ r.dropped)

/-- **A store is what the record says**: each key has the value that was written to it last and is looked
up as the text of this value, and its cell lists who hears the key; whoever else it lists is one of these
that was dropped. All turns so far have been given to callbacks by a write to the key that they hear. -/
structure Faithful (data : List (String × Value)) (store : Store)
    (w : World (Callback κ) (Record σ)) : Prop where
  value : ∀ key, w.value? store key = w.host.value? data key
  lookup : ∀ key, w.lookup store key = (w.host.value? data key).map Value.text
  known : ∀ key, (w.lookup store key).isSome = true ↔ key ∈ data.map Prod.fst
  hearing : ∀ key cell, store.cell? key = some cell →
    (w.cell cell).subscribers.filter (· ∉ w.host.dropped) = w.host.hearing key
  listed : ∀ key cell, store.cell? key = some cell →
    ∀ s ∈ (w.cell cell).subscribers, (key, s) ∈ w.host.subscribed
  turns : ∀ turn ∈ w.host.turns, turn.within = some (turn.key, turn.value)

theorem isSome_recorded (r : Record σ) (data : List (String × Value)) (key : String) :
    (r.value? data key).isSome = true ↔ key ∈ data.map Prod.fst := by
  unfold Record.value?
  by_cases hkey : key ∈ data.map Prod.fst
  · rw [if_pos hkey]
    refine iff_of_true ?_ hkey
    rw [Option.isSome_iff_ne_none, Ne, List.lookup_eq_none_iff]
    intro hnone
    obtain ⟨entry, hentry, rfl⟩ := List.mem_map.mp hkey
    have := hnone entry (List.mem_reverse.mpr (List.mem_append_left _ hentry))
    simp at this
  · rw [if_neg hkey]
    exact iff_of_false Bool.false_ne_true hkey

/-- Who subscribes to a key hears it, and hears no other. -/
theorem Record.hearing_subscribe (r : Record σ) (key : String) (s : SubscriberId) (k : String) :
    Record.hearing { r with subscribed := r.subscribed ++ [(key, s)] } k =
      r.hearing k ++ (if key = k then [s] else []).filter (· ∉ r.dropped) := by
  unfold Record.hearing
  dsimp only
  rw [List.filter_append, List.map_append, List.filter_append]
  by_cases hk : key = k
  · simp [hk]
  · simp [hk]

/-- A write to a key is the last entry of that key, and of no other. -/
theorem Record.value?_write (r : Record σ) (data : List (String × Value)) (key : String)
    (value : Value) (running : List (String × Value)) :
    Record.value? { r with writes := r.writes ++ [(key, value)], running } data =
      overwritten (r.value? data) key value := by
  funext k
  unfold Record.value? overwritten
  dsimp only
  rw [← List.append_assoc, List.reverse_append, List.reverse_singleton, List.singleton_append,
    lookup_cons_eq_ite]
  by_cases hk : k = key
  · subst hk
    rw [if_pos rfl, if_pos rfl]
    by_cases hdeclared : k ∈ data.map Prod.fst
    · have hsome := (isSome_recorded r data k).mpr hdeclared
      unfold Record.value? at hsome
      rw [if_pos hdeclared] at hsome ⊢
      obtain ⟨old, hold⟩ := Option.isSome_iff_exists.mp hsome
      rw [if_pos hdeclared, hold]
      rfl
    · rw [if_neg hdeclared, if_neg hdeclared]
      rfl
  · rw [if_neg hk, if_neg hk]

end BoundView.Keyed
