/-
# BorderSync.Queue.Notice -- telling those who wait

Tasks wait on a notice board. A call to one reaches the task that has waited longest; if nobody
waits, it is kept for the next one to come. A call to all reaches those who wait now and nobody
later.
-/

namespace BorderSync

/-- The number of a task. -/
abbrev TaskId := Nat

/-- **Notice board**: whether a call is kept, and who waits, longest first. -/
structure Notice where
  kept : Bool := false
  waiters : List TaskId := []
  deriving DecidableEq, Repr

namespace Notice

/-- Call one task. -/
def callOne (n : Notice) : Notice × List TaskId :=
  match n.waiters with
  | [] => ({ n with kept := true }, [])
  | t :: rest => ({ n with waiters := rest }, [t])

/-- Call all tasks that wait. -/
def callAll (n : Notice) : Notice × List TaskId :=
  ({ n with waiters := [] }, n.waiters)

/-- Wait for a call. A call that was kept is used up at once. -/
def register (n : Notice) (t : TaskId) : Notice × Bool :=
  if n.kept then ({ n with kept := false }, true)
  else ({ n with waiters := n.waiters ++ [t] }, false)

/-- Wait no more. -/
def withdraw (n : Notice) (t : TaskId) : Notice :=
  { n with waiters := n.waiters.filter fun u => !(u == t) }

end Notice

end BorderSync
