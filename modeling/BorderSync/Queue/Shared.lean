/-
# BorderSync.Queue.Shared -- a work queue and those who wait on it

Consumers wait for items, drains wait for the queue to be idle after it was shut down. Every
operation is that of the work queue followed by the calls it makes; it yields the tasks that are
woken, in the order in which they are.
-/
import BorderSync.Queue.Notice
import BorderSync.Queue.WorkQueue

namespace BorderSync

/-- **Shared queue**: a work queue with its two notice boards. -/
structure SharedQueue (α : Type) where
  queue : WorkQueue α
  itemReady : Notice := {}
  drained : Notice := {}

namespace SharedQueue

variable {α : Type} [BEq α]

/-- Make one call. -/
def call (s : SharedQueue α) : WorkQueue.Call → SharedQueue α × List TaskId
  | .oneConsumer => ({ s with itemReady := s.itemReady.callOne.1 }, s.itemReady.callOne.2)
  | .allConsumers => ({ s with itemReady := s.itemReady.callAll.1 }, s.itemReady.callAll.2)
  | .allDrains => ({ s with drained := s.drained.callAll.1 }, s.drained.callAll.2)

/-- Make calls in order. -/
def calls (s : SharedQueue α) : List WorkQueue.Call → SharedQueue α × List TaskId
  | [] => (s, [])
  | c :: rest =>
    let (s₁, woken) := s.call c
    let (s₂, more) := s₁.calls rest
    (s₂, woken ++ more)

/-- Replace the queue and make calls. -/
def become (s : SharedQueue α) (q : WorkQueue α) (cs : List WorkQueue.Call) :
    SharedQueue α × List TaskId :=
  { s with queue := q }.calls cs

/-- Add an item now. -/
def add (s : SharedQueue α) (x : α) : SharedQueue α × List TaskId :=
  s.become (s.queue.add x) (s.queue.addCalls x)

/-- A delayed item lands. -/
def land (s : SharedQueue α) (x : α) : SharedQueue α × List TaskId :=
  s.become (s.queue.land x) (s.queue.landCalls x)

/-- An item is done. -/
def done (s : SharedQueue α) (x : α) : SharedQueue α × List TaskId :=
  s.become (s.queue.done x) (s.queue.doneCalls x)

/-- Forget the failures of an item. -/
def forget (s : SharedQueue α) (x : α) : SharedQueue α :=
  { s with queue := s.queue.forget x }

/-- Take nothing new from now on. -/
def shutDown (s : SharedQueue α) : SharedQueue α × List TaskId :=
  s.become s.queue.shutDown [.allConsumers]

/-- A consumer asks for an item: it registers, looks, and stays registered if there is nothing. A
call that was kept only makes it look once more. -/
def consult (s : SharedQueue α) (t : TaskId) :
    SharedQueue α × WorkQueue.Hand α × List TaskId :=
  let (board, again) := s.itemReady.register t
  match s.queue.hand with
  | .notYet =>
    ({ s with itemReady := if again then (board.register t).1 else board }, .notYet, [])
  | hand =>
    let (s', woken) := { s with itemReady := board.withdraw t }.become s.queue.take s.queue.takeCalls
    (s', hand, woken)

/-- A drain looks whether the queue is idle; it stays registered if it is not. -/
def consultEnd (s : SharedQueue α) (t : TaskId) : SharedQueue α × Bool :=
  if s.queue.isIdle then ({ s with drained := s.drained.withdraw t }, true)
  else ({ s with drained := (s.drained.withdraw t).register t |>.1 }, false)

/-- A consumer leaves. -/
def abandon (s : SharedQueue α) (t : TaskId) : SharedQueue α :=
  { s with itemReady := s.itemReady.withdraw t }

/-- The warning of a drain that has waited for another second. -/
def drainText (q : WorkQueue α) : String :=
  q.name ++ ": still draining (" ++ toString q.processing.length ++ " in flight, "
    ++ toString q.waiting.length ++ " queued, " ++ toString q.delayed ++ " delayed)"

/-- The warning about a delayed add that came too late. -/
def refusalText (q : WorkQueue α) : String :=
  q.name ++ ": dropping delayed add after shutdown"

end SharedQueue

end BorderSync
