/-
# BorderSync.Schedule.Clock -- tasks that take turns, and time that waits for them

Tasks run one at a time, in the order in which they became ready. Time is counted in whole
milliseconds and stands still as long as a task is ready; then it moves to the next moment at which
a timer is due. Timers that are due at one moment wake their tasks in the order in which they were
started.
-/
import BorderSync.Queue.Notice

namespace BorderSync

/-- A timer of a task. -/
structure Timer where
  due : Nat
  task : TaskId
  deriving DecidableEq, Repr

/-- **Clock**: the moment, the tasks that are ready, and the timers in starting order. -/
structure Clock where
  now : Nat := 0
  ready : List TaskId := []
  timers : List Timer := []
  nextTask : TaskId := 0
  deriving Repr

namespace Clock

/-- Make a task ready, unless it is. -/
def wake (c : Clock) (t : TaskId) : Clock :=
  if c.ready.contains t then c else { c with ready := c.ready ++ [t] }

/-- Make tasks ready, in order. -/
def wakeAll (c : Clock) (ts : List TaskId) : Clock :=
  ts.foldl wake c

/-- A number for a new task, which is ready. -/
def spawn (c : Clock) : Clock × TaskId :=
  ({ c with nextTask := c.nextTask + 1 }.wake c.nextTask, c.nextTask)

/-- Start a timer. -/
def start (c : Clock) (t : TaskId) (due : Nat) : Clock :=
  { c with timers := c.timers ++ [⟨due, t⟩] }

/-- Stop the timer of a task that is due at the given moment. -/
def stop (c : Clock) (t : TaskId) (due : Nat) : Clock :=
  { c with timers := c.timers.filter fun m => !(m == ⟨due, t⟩) }

/-- Stop all timers of a task. -/
def stopAll (c : Clock) (t : TaskId) : Clock :=
  { c with timers := c.timers.filter fun m => m.task != t }

/-- The first moment at which a timer is due. -/
def nextDue? (c : Clock) : Option Nat :=
  (c.timers.map Timer.due).min?

/-- Move to a moment; the timers that are due by then wake their tasks and are gone. -/
def moveTo (c : Clock) (moment : Nat) : Clock :=
  let due := c.timers.filter fun m => m.due ≤ moment
  { c with now := moment, timers := c.timers.filter fun m => !(m.due ≤ moment : Bool) }.wakeAll
    (due.map Timer.task)

/-- The task whose turn it is. -/
def pop? (c : Clock) : Option (TaskId × Clock) :=
  match c.ready with
  | [] => none
  | t :: rest => some (t, { c with ready := rest })

end Clock

/-- A system of tasks: its clock, and what happens when a task has its turn. -/
class Tasks (σ : Type) where
  clock : σ → Clock
  withClock : σ → Clock → σ
  turn : TaskId → σ → σ

namespace Tasks

variable {σ : Type} [Tasks σ]

/-- Give turns until no task is ready; `n` bounds their number. -/
def settle : (n : Nat) → σ → σ
  | 0, s => s
  | n + 1, s =>
    match (clock s).pop? with
    | none => s
    | some (t, c) => settle n (turn t (withClock s c))

/-- Give turns up to a moment and at it; `n` bounds the number of moments, `turns` the turns at
each. -/
def runUntil (turns : Nat) : (n : Nat) → (moment : Nat) → σ → σ
  | 0, moment, s => withClock s ((clock s).moveTo moment)
  | n + 1, moment, s =>
    let s := settle turns s
    match (clock s).nextDue? with
    | none => withClock s ((clock s).moveTo moment)
    | some due =>
      if due ≤ moment then
        runUntil turns n moment (settle turns (withClock s ((clock s).moveTo due)))
      else withClock s ((clock s).moveTo moment)

end Tasks

end BorderSync
