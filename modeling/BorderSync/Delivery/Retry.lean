/-
# BorderSync.Delivery.Retry -- what follows an attempt

An attempt that succeeds ends the work on an update. One that fails is repeated after a wait as
long as the number of attempts is below the limit; then the update is given up with a warning that
carries all of it.
-/
import BorderSync.Error
import BorderSync.Event.Update
import BorderSync.Log
import BorderSync.Queue.WorkQueue

namespace BorderSync.Delivery

open Event

/-- What follows an attempt; a failure tells how many attempts there were. -/
inductive Verdict where
  | applied
  | again (attempts : Nat)
  | givenUp (attempts : Nat)
  deriving DecidableEq, Repr

/-- **The verdict** on an attempt, after `requeues` earlier failures. -/
def verdict (limit requeues : Nat) : Except Error Unit → Verdict
  | .ok () => .applied
  | .error _ => if requeues + 1 < limit then .again (requeues + 1) else .givenUp (requeues + 1)

/-- The report about a failed attempt. -/
def failureReport (limit : Nat) (u : Update) (e : Error) : Verdict → List Report
  | .applied => []
  | .again attempts =>
    [.info ("🔄 Synchronizer::handle_event: " ++ u.id ++ " failed (attempt " ++ toString attempts
      ++ "/" ++ toString limit ++ "), retrying: " ++ e.message)]
  | .givenUp attempts =>
    [.warn ("💀 Synchronizer::handle_event: giving up on " ++ u.id ++ " after " ++ toString attempts
      ++ " attempts: " ++ e.message ++ "; event: " ++ u.describe)]

/-- The reports about an attempt. -/
def attemptReports (limit requeues : Nat) (u : Update) (r : Except Error Unit) : List Report :=
  match r with
  | .ok () => []
  | .error e => failureReport limit u e (verdict limit requeues r)

/-- The queue after a verdict, except that a repeated update is still to be added. -/
def settle (q : WorkQueue Update) (u : Update) : Verdict → WorkQueue Update
  | .applied => q.forget u
  | .givenUp _ => q.forget u
  | .again _ => q.recordFailure u

/-- Seconds that a shutdown waits for attempts in progress. -/
def graceSeconds : Nat := 30

/-- The warning about a shutdown that has waited long enough. -/
def graceReport : Report :=
  .warn ("Synchronizer::shut_down: drain exceeded " ++ (Duration.ofSecs graceSeconds).text
    ++ ", abandoning in-flight events")

/-- The warning about an update that a shutdown leaves undone. -/
def abandonReport (u : Update) : Report :=
  .warn ("Synchronizer::handle_event: abandoning " ++ u.id ++ " on shutdown")

end BorderSync.Delivery
