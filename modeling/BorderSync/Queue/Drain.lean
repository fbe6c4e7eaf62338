/-
# BorderSync.Queue.Drain -- waiting for the end of a queue

A drain shuts the queue down and waits until nothing is waiting, in hand or delayed. For every full
second that it waits in vain it warns with the numbers of what is left.
-/
import BorderSync.Log
import BorderSync.Queue.Shared
import BorderSync.Schedule.Clock

namespace BorderSync

/-- **Drain**: the moment of its next warning, once it has begun. -/
structure Drain where
  warnAt : Option Nat := none
  deriving DecidableEq, Repr

namespace Drain

/-- Milliseconds between warnings. -/
def period : Nat := 1000

/-- What a turn of a drain leaves behind. -/
structure Turn (α : Type) where
  shared : SharedQueue α
  clock : Clock
  drain : Drain
  ended : Bool
  reports : List Report

variable {α : Type} [BEq α]

/-- Look for the end; without it, wait for a call or another period. -/
def look (t : TaskId) (s : SharedQueue α) (c : Clock) (reports : List Report) : Turn α :=
  let (s, idle) := s.consultEnd t
  if idle then ⟨s, c, {}, true, reports⟩
  else ⟨s, c.start t (c.now + period), ⟨some (c.now + period)⟩, false, reports⟩

/-- **One turn of a drain.** A call counts more than a period that ends at the same moment. -/
def turn (d : Drain) (t : TaskId) (s : SharedQueue α) (c : Clock) : Turn α :=
  match d.warnAt with
  | none =>
    let (s, woken) := s.shutDown
    look t s (c.wakeAll woken) []
  | some due =>
    if !s.drained.waiters.contains t then look t s (c.stop t due) []
    else if due ≤ c.now then
      look t s c (if s.queue.isIdle then [] else [.warn (SharedQueue.drainText s.queue)])
    else ⟨s, c, d, false, []⟩

/-- Give a drain up. -/
def dismiss (d : Drain) (t : TaskId) (s : SharedQueue α) (c : Clock) : SharedQueue α × Clock :=
  ({ s with drained := s.drained.withdraw t },
   match d.warnAt with
   | none => c
   | some due => c.stop t due)

end Drain

end BorderSync
