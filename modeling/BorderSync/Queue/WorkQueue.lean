/-
# BorderSync.Queue.WorkQueue -- work that is waiting, in hand, or due again

A work queue holds every item at most once. An item that is added while it is in hand is kept back
and put in again when it is done, so that no item is ever in two hands. Items may be added after a
delay. A queue that is shut down takes nothing new but hands out what it has accepted.

Operations are functions on the queue. What has to be told to those who wait on it stands beside
each operation, as a list of calls.
-/
import BorderSync.Queue.Backoff

namespace BorderSync

/-- **Work queue.** -/
structure WorkQueue (α : Type) where
  name : String
  backoff : Backoff α
  /-- Items to hand out, in order. -/
  waiting : List α := []
  /-- Items that were added and not handed out since. -/
  dirty : List α := []
  /-- Items that were handed out and are not done. -/
  processing : List α := []
  /-- Number of delayed adds that have not landed. -/
  delayed : Nat := 0
  closed : Bool := false

namespace WorkQueue

variable {α : Type} [BEq α]

/-- The queue without items. -/
def new (name : String) (base max : Duration) : WorkQueue α :=
  { name := name, backoff := ⟨base, max, .empty⟩ }

/-- Whom an operation calls: one waiting consumer, all of them, or all who wait for the end. -/
inductive Call where
  | oneConsumer
  | allConsumers
  | allDrains
  deriving DecidableEq, Repr

/-- Nothing is waiting, in hand or delayed. -/
def isIdle (q : WorkQueue α) : Bool :=
  q.waiting.isEmpty && q.processing.isEmpty && q.delayed == 0

/-- Number of items that are waiting. -/
def size (q : WorkQueue α) : Nat :=
  q.waiting.length

/-! ## Adding -/

/-- Taking the item in puts it among the waiting ones. -/
def enters (q : WorkQueue α) (x : α) : Bool :=
  !q.dirty.contains x && !q.processing.contains x

/-- Take an item in, unless an equal one was taken in and not handed out since. -/
def push (q : WorkQueue α) (x : α) : WorkQueue α :=
  if q.dirty.contains x then q
  else
    { q with
      dirty := q.dirty ++ [x]
      waiting := if q.processing.contains x then q.waiting else q.waiting ++ [x] }

/-- Add an item now. -/
def add (q : WorkQueue α) (x : α) : WorkQueue α :=
  if q.closed then q else q.push x

/-- Whom `add` calls. -/
def addCalls (q : WorkQueue α) (x : α) : List Call :=
  if !q.closed && q.enters x then [.oneConsumer] else []

/-- What becomes of an item that is to be added after a delay. -/
inductive Admission where
  | now
  | later
  | refused
  deriving DecidableEq, Repr

/-- Without delay an item is added now; a queue that is shut down accepts no delay. -/
def admission (q : WorkQueue α) (delay : Duration) : Admission :=
  if delay.nanos = 0 then .now else if q.closed then .refused else .later

/-- Announce an item that lands later. -/
def announce (q : WorkQueue α) : WorkQueue α :=
  { q with delayed := q.delayed + 1 }

/-- Add an item after a delay, as far as it concerns the queue now. -/
def addAfter (q : WorkQueue α) (x : α) (delay : Duration) : WorkQueue α :=
  match q.admission delay with
  | .now => q.add x
  | .later => q.announce
  | .refused => q

/-- A delayed item lands. -/
def land (q : WorkQueue α) (x : α) : WorkQueue α :=
  { q with delayed := q.delayed - 1 }.push x

/-- Whom `land` calls. -/
def landCalls (q : WorkQueue α) (x : α) : List Call :=
  (if q.enters x then [.oneConsumer] else [])
    ++ (if q.closed && (q.land x).delayed == 0 then [.allConsumers] else [])
    ++ (if (q.land x).isIdle then [.allDrains] else [])

/-- Count a failure of an item; the wait that it earns is `q.backoff.wait x`. -/
def recordFailure (q : WorkQueue α) (x : α) : WorkQueue α :=
  { q with backoff := q.backoff.record x }

/-- Add an item after the wait that its failures earn. -/
def addRateLimited (q : WorkQueue α) (x : α) : WorkQueue α :=
  (q.recordFailure x).addAfter x (q.backoff.wait x)

/-- Number of failures recorded for an item. -/
def requeues (q : WorkQueue α) (x : α) : Nat :=
  q.backoff.count x

/-- Forget the failures of an item. -/
def forget (q : WorkQueue α) (x : α) : WorkQueue α :=
  { q with backoff := q.backoff.forget x }

/-! ## Handing out -/

/-- What a consumer gets: an item, the news that none will come, or nothing yet. -/
inductive Hand (α : Type) where
  | item (x : α)
  | finished
  | notYet
  deriving DecidableEq, Repr

/-- What a consumer that asks now gets. -/
def hand (q : WorkQueue α) : Hand α :=
  match q.waiting with
  | x :: _ => .item x
  | [] => if q.closed && q.delayed == 0 then .finished else .notYet

/-- The queue after a consumer has asked. -/
def take (q : WorkQueue α) : WorkQueue α :=
  match q.waiting with
  | [] => q
  | x :: rest =>
    { q with
      waiting := rest
      dirty := q.dirty.filter fun y => !(y == x)
      processing := if q.processing.contains x then q.processing else q.processing ++ [x] }

/-- Whom a hand-out calls: the next consumer, if more is waiting. -/
def takeCalls (q : WorkQueue α) : List Call :=
  match q.waiting with
  | _ :: _ :: _ => [.oneConsumer]
  | _ => []

/-- An item that was handed out is done; it is put in again if it was added meanwhile. -/
def done (q : WorkQueue α) (x : α) : WorkQueue α :=
  { q with
    processing := q.processing.filter fun y => !(y == x)
    waiting := if q.dirty.contains x then q.waiting ++ [x] else q.waiting }

/-- Whom `done` calls. -/
def doneCalls (q : WorkQueue α) (x : α) : List Call :=
  if q.dirty.contains x then [.oneConsumer]
  else if (q.done x).isIdle then [.allDrains] else []

/-- Take nothing new from now on. -/
def shutDown (q : WorkQueue α) : WorkQueue α :=
  { q with closed := true }

end WorkQueue

end BorderSync
