import BoundView.World.Store

/-!
# A ledger of deliveries

What happens to cells is written down as a sequence of marks: cells are made, guards are given out and
dropped, writes are called and return, and subscribers enter and leave their turns. A **ledger** reads
such a sequence mark by mark and keeps an account of it: the value and the number of writes of each
cell, everybody who ever subscribed to it, the guards that are alive, and the rounds that are running,
innermost first. It refuses a mark that the account does not allow.

So a sequence that is read to its end delivers exactly. A write raises the number of writes by one and
begins a round for the subscribers that are live when it is called; nobody else may enter in this round,
they enter in the order in which they subscribed, once each and with the value of the write, and the
write returns when all of them have left. Whoever looks finds the last value that was stored and the
number of live subscribers. Requests are made in a turn, or outside of all rounds.

Who is **live** is a parameter. It may be those whose guards are alive; or those who are held, that is,
also those who have lost their guards but have a turn in a running round. The two agree as long as
nobody loses the guard before the turn is over.

Main statement: `read_guarded_of_patient`.
-/

namespace BoundView.Delivery

/-- **What a cell answers**: its value, the number of writes to it, and that of its subscribers. -/
structure Sight where
  value : Value
  version : Nat
  count : Nat
  deriving DecidableEq

/-- **What happens to cells.** -/
inductive Mark where
  | made (cell : CellId) (value : Value)
  | subscribed (cell : CellId) (s : SubscriberId)
  /-- The guard of a subscriber is dropped. -/
  | dropped (s : SubscriberId)
  | looked (cell : CellId) (sight : Sight)
  /-- A write is called. -/
  | called (cell : CellId) (value : Value)
  /-- A subscriber's turn begins, with the value that it is given and with what its cell answers. -/
  | entered (s : SubscriberId) (value : Value) (sight : Sight)
  | left (s : SubscriberId)
  /-- The write that was called last returns. -/
  | returned (cell : CellId)
  deriving DecidableEq

/-- **The account of a cell.** -/
structure Entry where
  value : Value
  version : Nat
  /-- Everybody who ever subscribed, oldest first. -/
  registered : List SubscriberId
  deriving DecidableEq

/-- **A running round.** -/
structure Round where
  cell : CellId
  value : Value
  /-- Whose turn it is. -/
  running : Option SubscriberId
  /-- Whose turns are still to come. -/
  waiting : List SubscriberId
  deriving DecidableEq

/-- **A ledger.** -/
structure Ledger where
  entries : List Entry
  /-- The number of subscriptions so far. -/
  subscribers : Nat
  /-- Those whose guards are alive. -/
  guards : List SubscriberId
  /-- The running rounds, innermost first. -/
  rounds : List Round
  deriving DecidableEq

/-- Everybody who has a turn in a round that is not over. -/
def Round.turns (r : Round) : List SubscriberId := r.running.toList ++ r.waiting

namespace Ledger

/-- The ledger of nothing. -/
def empty : Ledger := ⟨[], 0, [], []⟩

/-- Everybody who has a turn in a running round that is not over. -/
def turns (l : Ledger) : List SubscriberId := l.rounds.flatMap Round.turns

/-- Whether a guard is alive. -/
def guarded (l : Ledger) (s : SubscriberId) : Bool := l.guards.contains s

/-- Whether a subscriber is held: by its guard, or for a turn. -/
def held (l : Ledger) (s : SubscriberId) : Bool := l.guarded s || l.turns.contains s

/-- Whether requests may be made: in a turn, or outside of all rounds. -/
def isOpen (l : Ledger) : Bool := l.rounds.head?.all (·.running.isSome)

/-- Changes the account of a cell. -/
def modifyEntry (l : Ledger) (cell : CellId) (f : Entry → Entry) : Ledger :=
  { l with entries := l.entries.modify cell f }

section

variable (live : SubscriberId → Bool) (l : Ledger)

/-- What a cell has to answer. -/
def sight? (cell : CellId) : Option Sight :=
  (l.entries[cell]?).map fun e => ⟨e.value, e.version, e.registered.countP live⟩

/-- **A write is called**: it stores its value and begins a round for those who are live. -/
def call (cell : CellId) (value : Value) : Option Ledger :=
  (l.entries[cell]?).map fun e =>
    { l.modifyEntry cell fun e => { e with value, version := e.version + 1 } with
      rounds := ⟨cell, value, none, e.registered.filter live⟩ :: l.rounds }

/-- The next turn of the innermost round begins. -/
def enter (s : SubscriberId) (value : Value) (sight : Sight) : Option Ledger :=
  match l.rounds with
  | ⟨cell, given, none, next :: waiting⟩ :: rounds =>
    if s = next ∧ value = given ∧ l.sight? live cell = some sight then
      some { l with rounds := ⟨cell, given, some s, waiting⟩ :: rounds }
    else none
  | _ => none

/-- The turn is over. -/
def leave (s : SubscriberId) : Option Ledger :=
  match l.rounds with
  | ⟨cell, value, some running, waiting⟩ :: rounds =>
    if s = running then some { l with rounds := ⟨cell, value, none, waiting⟩ :: rounds } else none
  | _ => none

/-- The innermost round is over. -/
def finish (cell : CellId) : Option Ledger :=
  match l.rounds with
  | ⟨other, _, none, []⟩ :: rounds => if cell = other then some { l with rounds } else none
  | _ => none

/-- **One mark is read**, when these subscribers are live. -/
def step : Mark → Option Ledger
  | .made cell value =>
    if l.isOpen ∧ cell = l.entries.length then
      some { l with entries := l.entries ++ [⟨value, 0, []⟩] }
    else none
  | .subscribed cell s =>
    if l.isOpen ∧ cell < l.entries.length ∧ s = l.subscribers then
      some { l.modifyEntry cell fun e => { e with registered := e.registered ++ [s] } with
        subscribers := s + 1
        guards := l.guards ++ [s] }
    else none
  | .dropped s =>
    if l.isOpen ∧ s ∈ l.guards then some { l with guards := l.guards.erase s } else none
  | .looked cell sight => if l.isOpen ∧ l.sight? live cell = some sight then some l else none
  | .called cell value => if l.isOpen then l.call live cell value else none
  | .entered s value sight => l.enter live s value sight
  | .left s => l.leave s
  | .returned cell => l.finish cell

end

/-- **Reads marks in order**, when it is read off the ledger who is live. -/
def read (live : Ledger → SubscriberId → Bool) (l : Ledger) (marks : List Mark) : Option Ledger :=
  marks.foldlM (fun (l : Ledger) m => l.step (live l) m) l

/-- Whether marks are read to their end. -/
def accepts (live : Ledger → SubscriberId → Bool) (marks : List Mark) : Bool :=
  (read live empty marks).isSome

theorem read_cons (live : Ledger → SubscriberId → Bool) (l : Ledger) (m : Mark) (marks : List Mark) :
    read live l (m :: marks) = (l.step (live l) m).bind fun l => read live l marks := rfl

theorem read_concat (live : Ledger → SubscriberId → Bool) (l : Ledger) (marks : List Mark) (m : Mark) :
    read live l (marks ++ [m]) = (read live l marks).bind fun l => l.step (live l) m := by
  unfold read
  rw [List.foldlM_append]
  show ((marks.foldlM (fun (l : Ledger) m => l.step (live l) m) l).bind fun l =>
    (l.step (live l) m).bind some) = _
  congr 1
  funext l
  exact Option.bind_fun_some _

/-! ## Marks of turns -/

section

variable {live : SubscriberId → Bool} {l : Ledger} {cell : CellId} {value : Value} {s : SubscriberId}
  {waiting : List SubscriberId} {rounds : List Round}

/-- **Whoever is next may enter**, with what the cell answers. -/
theorem step_entered {sight : Sight} (hrounds : l.rounds = ⟨cell, value, none, s :: waiting⟩ :: rounds)
    (hsight : l.sight? live cell = some sight) : l.step live (.entered s value sight) =
      some { l with rounds := ⟨cell, value, some s, waiting⟩ :: rounds } := by
  dsimp only [step, enter]
  rw [hrounds]
  exact if_pos ⟨rfl, rfl, hsight⟩

theorem step_left (hrounds : l.rounds = ⟨cell, value, some s, waiting⟩ :: rounds) :
    l.step live (.left s) = some { l with rounds := ⟨cell, value, none, waiting⟩ :: rounds } := by
  dsimp only [step, leave]
  rw [hrounds]
  exact if_pos rfl

/-- **A write may return** when nobody is left to wait. -/
theorem step_returned (hrounds : l.rounds = ⟨cell, value, none, []⟩ :: rounds) :
    l.step live (.returned cell) = some { l with rounds } := by
  dsimp only [step, finish]
  rw [hrounds]
  exact if_pos rfl

end

/-! ## Guards that are dropped too early -/

/-- Whether a mark leaves the guards of those alone who have a turn. -/
def spares (l : Ledger) : Mark → Bool
  | .dropped s => !l.turns.contains s
  | _ => true

/-- **Nobody loses the guard before the turn is over.** -/
def patient (l : Ledger) : List Mark → Bool
  | [] => true
  | m :: marks => l.spares m && (l.step l.held m).all fun l => patient l marks

/-- Everybody who has a turn has a guard. -/
def Covered (l : Ledger) : Prop := ∀ s ∈ l.turns, s ∈ l.guards

variable {l l' : Ledger}

theorem held_eq_guarded (h : l.Covered) : l.held = l.guarded := by
  funext s
  unfold held
  cases hturn : l.turns.contains s with
  | false => rw [Bool.or_false]
  | true =>
    have hguard : l.guarded s = true := List.contains_iff_mem.mpr (h s (List.contains_iff_mem.mp hturn))
    rw [hguard]
    rfl

theorem turns_of_rounds {r : Round} {rounds : List Round} (h : l.rounds = r :: rounds) :
    l.turns = r.turns ++ turns { l with rounds } := by
  unfold turns
  rw [h]
  rfl

/-- **A step that drops no guard too early** keeps everybody covered who has a turn. -/
theorem step_covered {m : Mark} (h : l.Covered) (hm : ∀ s, m = .dropped s → s ∉ l.turns)
    (hstep : l.step l.held m = some l') : l'.Covered := by
  cases m with
  | made cell value =>
    dsimp only [step] at hstep
    split at hstep <;> cases hstep
    exact h
  | subscribed cell s =>
    dsimp only [step] at hstep
    split at hstep <;> cases hstep
    exact fun t ht => List.mem_append_left _ (h t ht)
  | dropped s =>
    dsimp only [step] at hstep
    split at hstep <;> cases hstep
    intro t ht
    refine (List.mem_erase_of_ne ?_).mpr (h t ht)
    rintro rfl
    exact hm t rfl ht
  | looked cell sight =>
    dsimp only [step] at hstep
    split at hstep <;> cases hstep
    exact h
  | called cell value =>
    dsimp only [step, call] at hstep
    split at hstep
    · obtain ⟨e, _, rfl⟩ := Option.map_eq_some_iff.mp hstep
      intro t ht
      rcases List.mem_append.mp (show t ∈ _ ++ l.turns from ht) with hround | hturn
      · rw [held_eq_guarded h] at hround
        exact List.contains_iff_mem.mp (List.mem_filter.mp hround).2
      · exact h t hturn
    · cases hstep
  | entered s value sight =>
    dsimp only [step, enter] at hstep
    split at hstep
    · rename_i cell given next waiting rounds hrounds
      split at hstep <;> cases hstep
      rename_i heq
      obtain ⟨rfl, -, -⟩ := heq
      unfold Covered turns at h
      rw [hrounds] at h
      exact h
    · cases hstep
  | left s =>
    dsimp only [step, leave] at hstep
    split at hstep
    · rename_i cell given running waiting rounds hrounds
      split at hstep <;> cases hstep
      unfold Covered turns at h
      rw [hrounds] at h
      exact fun t ht => h t (List.mem_cons_of_mem _ ht)
    · cases hstep
  | returned cell =>
    dsimp only [step, finish] at hstep
    split at hstep
    · rename_i other given rounds hrounds
      split at hstep <;> cases hstep
      unfold Covered turns at h
      rw [hrounds] at h
      exact h
    · cases hstep

/-- **Marks that drop no guard too early** are read alike whether those who are guarded count as live,
or those who are held. -/
theorem read_guarded_of_patient {marks : List Mark} (h : l.Covered) (hpatient : l.patient marks = true) :
    read guarded l marks = read held l marks := by
  induction marks generalizing l with
  | nil => rfl
  | cons m marks ih =>
    unfold patient at hpatient
    obtain ⟨hdropped, hrest⟩ := Bool.and_eq_true_iff.mp hpatient
    rw [read_cons, read_cons, ← held_eq_guarded h]
    cases hstep : l.step l.held m with
    | none => rfl
    | some l' =>
      rw [hstep] at hrest
      refine ih (step_covered h ?_ hstep) hrest
      rintro s rfl hturn
      replace hdropped : (!l.turns.contains s) = true := hdropped
      rw [List.contains_iff_mem.mpr hturn] at hdropped
      cases hdropped

theorem covered_empty : empty.Covered := fun _ hs => absurd hs List.not_mem_nil

end Ledger

end BoundView.Delivery
