/-
# BorderSync.Proofs.Queue.Lobby -- those who wait on a queue, one step at a time

Whoever changes a queue holds it alone only while it does so. Its calls come afterwards, one by one, and
others may look, register or wait in between. A consumer registers, looks, and waits until it is called
if there was nothing; a drain does the same for the end of the queue. So a call may reach someone who has
not looked yet, or someone who finds that what it was called for is gone, or nobody at all.

A **lobby** is a queue with its notice boards and with everyone who is in the middle of something. A call
to one that has reached a consumer belongs to that consumer until it registers anew; if it goes without
doing so, the call is passed on.
-/
import BorderSync.Proofs.Endless
import BorderSync.Proofs.Queue.Calls
import BorderSync.Queue.Shared

namespace BorderSync.WorkQueue

/-- What a task does once it has made its calls. -/
inductive Sequel where
  /-- It is through with the queue. -/
  | goes
  /-- A consumer gives up its registration, and is through. -/
  | withdraws
  /-- A drain registers and looks. -/
  | drains
  deriving DecidableEq, Repr

/-- **Task**: how far someone is who uses a queue. -/
inductive Task where
  /-- It has let go of the queue and has calls to make. -/
  | calling (sequel : Sequel) (calls : List Call)
  /-- A consumer has registered and is about to look. -/
  | looking
  /-- A consumer has found nothing and waits until it is called. -/
  | parked
  /-- A drain has registered and is about to look. -/
  | watching
  /-- A drain has found that the queue is not idle, and waits until it is called. -/
  | lingering
  deriving DecidableEq, Repr

/-- It is in the middle of asking for an item. -/
def Task.consumes : Task → Bool
  | .looking => true
  | .parked => true
  | .calling .withdraws _ => true
  | _ => false

/-- **Lobby**: a queue, its notice boards, and those who use it. -/
structure Lobby (α : Type) where
  floor : Floor α
  itemReady : Notice := {}
  drained : Notice := {}
  /-- Consumers that a call to one has reached and that have not registered since. -/
  reached : List TaskId := []
  tasks : Table TaskId Task := {}

namespace Lobby

variable {α : Type} [BEq α]

/-- A new queue that nobody uses. -/
def start (name : String) (base max : Duration) : Lobby α :=
  { floor := .start name base max }

/-- The queue with its notice boards. -/
def shared (l : Lobby α) : SharedQueue α :=
  ⟨l.floor.queue, l.itemReady, l.drained⟩

/-- A task is at another point. -/
def put (l : Lobby α) (t : TaskId) (w : Task) : Lobby α :=
  { l with tasks := l.tasks.insert t w }

/-- A task is through. -/
def dismiss (l : Lobby α) (t : TaskId) : Lobby α :=
  { l with tasks := l.tasks.erase t }

/-- Make one call. -/
def call (l : Lobby α) (c : Call) : Lobby α :=
  let (s, woken) := l.shared.call c
  { l with
    itemReady := s.itemReady
    drained := s.drained
    reached := if c = .oneConsumer then l.reached ++ woken else l.reached }

/-- A consumer registers. The call that has reached it before is used up. -/
def register (l : Lobby α) (t : TaskId) : Lobby α :=
  { l with
    itemReady := (l.itemReady.register t).1
    reached := l.reached.filter fun u => !(u == t) }

/-- A consumer is neither registered nor reached any more. -/
def strike (l : Lobby α) (t : TaskId) : Lobby α :=
  { l with
    itemReady := l.itemReady.withdraw t
    reached := l.reached.filter fun u => !(u == t) }

/-- A consumer gives up its registration. The call that has reached it is passed on. -/
def withdraw (l : Lobby α) (t : TaskId) : Lobby α :=
  if l.reached.contains t then (l.strike t).call .oneConsumer else l.strike t

/-- A drain registers. -/
def enlist (l : Lobby α) (t : TaskId) : Lobby α :=
  { l with drained := ((l.drained.withdraw t).register t).1 }

/-- A consumer that has registered looks. -/
def look (l : Lobby α) (t : TaskId) : Lobby α :=
  match l.floor.queue.hand with
  | .notYet => l.put t .parked
  | _ => { l with floor := l.floor.take }.put t (.calling .withdraws l.floor.queue.takeCalls)

/-- A drain that has registered looks. -/
def check (l : Lobby α) (t : TaskId) : Lobby α :=
  if l.floor.queue.isIdle then { l with drained := l.drained.withdraw t }.dismiss t
  else l.put t .lingering

/-- **Move**: one step of one task. -/
inductive Move (α : Type) where
  /-- Someone comes and changes the queue. -/
  | use (t : TaskId) (m : WorkQueue.Move α)
  /-- A task makes the next of its calls. -/
  | call (t : TaskId)
  /-- A task that has made all its calls goes. -/
  | leave (t : TaskId)
  /-- A consumer comes, or is not registered any more, and registers. -/
  | ask (t : TaskId)
  | look (t : TaskId)
  /-- Someone comes and shuts the queue down to see it drained. -/
  | drain (t : TaskId)
  /-- A drain registers, at first, when it was called, or after another period. -/
  | watch (t : TaskId)
  | check (t : TaskId)
  /-- Someone who waits is given up. -/
  | abandon (t : TaskId)
  deriving Repr

/-- The lobby after a move. -/
def next (l : Lobby α) : Move α → Lobby α
  | .use t m => { l with floor := l.floor.next m }.put t (.calling .goes (l.floor.queue.callsOf m))
  | .call t =>
    match l.tasks.get? t with
    | some (.calling sequel (c :: rest)) => (l.call c).put t (.calling sequel rest)
    | _ => l
  | .leave t =>
    match l.tasks.get? t with
    | some (.calling .withdraws _) => (l.withdraw t).dismiss t
    | _ => l.dismiss t
  | .ask t => (l.register t).put t .looking
  | .look t => l.look t
  | .drain t => { l with floor := l.floor.next .shutDown }.put t (.calling .drains [.allConsumers])
  | .watch t => (l.enlist t).put t .watching
  | .check t => l.check t
  | .abandon t =>
    match l.tasks.get? t with
    | some .parked => (l.withdraw t).dismiss t
    | _ => { l with drained := l.drained.withdraw t }.dismiss t

/-- Whoever comes is new; everyone else goes on where it is. Only consumers take items, and only those
who are not registered any more register anew. -/
def allows (l : Lobby α) : Move α → Bool
  | .use _ .take => false
  | .use t m => !l.tasks.contains t && l.floor.allows m
  | .call t =>
    match l.tasks.get? t with
    | some (.calling _ (_ :: _)) => true
    | _ => false
  | .leave t =>
    match l.tasks.get? t with
    | some (.calling sequel []) => sequel != .drains
    | _ => false
  | .ask t =>
    match l.tasks.get? t with
    | none => true
    | some .parked => !l.itemReady.waiters.contains t
    | _ => false
  | .look t => l.tasks.get? t == some .looking
  | .drain t => !l.tasks.contains t
  | .watch t => l.tasks.get? t == some (.calling .drains []) || l.tasks.get? t == some .lingering
  | .check t => l.tasks.get? t == some .watching
  | .abandon t => l.tasks.get? t == some .parked || l.tasks.get? t == some .lingering

/-- **The machine of a lobby**: its legal runs are all interleavings of the steps of those who use a
queue, however many they are. -/
def machine (α : Type) [BEq α] : Machine (Lobby α) (Move α) :=
  ⟨allows, next⟩

theorem look_of_notYet {l : Lobby α} (h : l.floor.queue.hand = .notYet) (t : TaskId) :
    l.look t = l.put t .parked := by
  unfold look
  rw [h]

/-- A consumer that gets an item, or the news that none will come, has the calls to make of a hand-out. -/
theorem look_of_hand {l : Lobby α} (h : l.floor.queue.hand ≠ .notYet) (t : TaskId) :
    l.look t = { l with floor := l.floor.take }.put t (.calling .withdraws l.floor.queue.takeCalls) := by
  unfold look
  cases hcase : l.floor.queue.hand with
  | notYet => exact absurd hcase h
  | finished => rfl
  | item x => rfl

/-! ## Who can go on -/

/-- Someone at this point is registered and has nothing to do but wait for a call. -/
def rests (l : Lobby α) (t : TaskId) : Task → Bool
  | .parked => l.itemReady.waiters.contains t
  | .lingering => l.drained.waiters.contains t
  | _ => false

/-- A task is in the middle of something that it can go on with. -/
def stirs (l : Lobby α) (t : TaskId) : Bool :=
  match l.tasks.get? t with
  | some w => !l.rests t w
  | none => false

/-- A task goes on by itself. Nobody new comes, nobody is given up, and no period is over. -/
def works (l : Lobby α) : Move α → Bool
  | .call t => l.stirs t
  | .leave t => l.stirs t
  | .ask t => l.stirs t
  | .look t => l.stirs t
  | .watch t => l.stirs t
  | .check t => l.stirs t
  | _ => false

/-- **A task that is in the middle of something can go on.** -/
theorem goes_on {l : Lobby α} {t : TaskId} (h : l.stirs t = true) :
    ∃ m, l.allows m = true ∧ l.works m = true := by
  have hstirs := h
  unfold stirs at h
  cases ht : l.tasks.get? t with
  | none => rw [ht] at h; exact absurd h Bool.false_ne_true
  | some w =>
    rw [ht] at h
    cases w with
    | calling sequel calls =>
      cases calls with
      | cons c rest => exact ⟨.call t, by simp [allows, ht], hstirs⟩
      | nil =>
        cases sequel with
        | drains => exact ⟨.watch t, by simp [allows, ht], hstirs⟩
        | goes => exact ⟨.leave t, by simp [allows, ht], hstirs⟩
        | withdraws => exact ⟨.leave t, by simp [allows, ht], hstirs⟩
    | looking => exact ⟨.look t, by simp [allows, ht], hstirs⟩
    | parked => exact ⟨.ask t, by simpa [allows, ht, rests] using h, hstirs⟩
    | watching => exact ⟨.check t, by simp [allows, ht], hstirs⟩
    | lingering => exact ⟨.watch t, by simp [allows, ht], hstirs⟩

/-- No task can go on exactly when all of them rest. -/
theorem quiet_iff (l : Lobby α) :
    (machine α).Quiet works l ↔ ∀ t w, l.tasks.get? t = some w → l.rests t w = true := by
  constructor
  · intro h t w ht
    cases hrests : l.rests t w with
    | true => rfl
    | false =>
      obtain ⟨m, hm, hworks⟩ := goes_on (l := l) (t := t) (by simp [stirs, ht, hrests])
      exact (h m hm).symm.trans hworks
  · intro h m _
    have hstirs : ∀ t, l.stirs t = false := by
      intro t
      unfold stirs
      cases ht : l.tasks.get? t with
      | none => rfl
      | some w => simp [h t w ht]
    cases m with
    | use t m => rfl
    | drain t => rfl
    | abandon t => rfl
    | _ t => exact hstirs t

/-- It is enough to look at the entries. -/
theorem quiet_of_entries {l : Lobby α} (h : ∀ e ∈ l.tasks.entries, l.rests e.1 e.2 = true) :
    (machine α).Quiet works l := by
  refine (quiet_iff l).mpr ?_
  intro t w ht
  obtain ⟨before, after, hentries, -⟩ := List.lookup_eq_some_iff.mp ht
  exact h (t, w) (by simp [hentries])

end Lobby

end BorderSync.WorkQueue
