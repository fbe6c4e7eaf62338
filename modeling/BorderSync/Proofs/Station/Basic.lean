/-
# BorderSync.Proofs.Station.Basic -- the run of the workers that carry out updates

A **station** is the outbound side from its start to its end: updates are scheduled with drawn delays, land
in the queue, are taken by workers and attempted against border servers, which may answer anything. An
attempt that fails is repeated after a wait until the update is given up. When the run is told to stop, the
queue is shut down and drained; once patience has run out, what is not yet carried out is abandoned.

A move is what one task does while no other can come in between: a worker that is called looks first
whether patience has run out, and then goes on up to the next request. Each move leaves marks of what it
has done and reported.
-/
import BorderSync.Border.Dispatch
import BorderSync.Delivery.Jitter
import BorderSync.Delivery.FanOut
import BorderSync.Delivery.Retry
import BorderSync.Proofs.Crew.Shift
import BorderSync.Queue.Shared
import BorderSync.Settings.Basic

namespace BorderSync

open Border Event

/-- **Handling**: how far a worker is with the update that it has in hand. -/
inductive Handling where
  | fresh
  | asking (call : Call Outcome)
  /-- The attempt has failed, and the update is to be added again after a wait. -/
  | again (wait : Duration)
  | settled

/-- **Station**: the outbound side, the moment at which it was told to stop, and whether patience has run
out since. Moments are milliseconds. -/
structure Station where
  shift : Shift Update Handling
  hardStop : Bool := false
  closedAt : Nat := 0
  now : Nat := 0

namespace Station

/-- **Move** of a producer, of a timer, of a worker or of the run itself. -/
inductive Move where
  /-- Time goes on. -/
  | pass (millis : Nat)
  /-- An update is scheduled; the number picks its delay. -/
  | schedule (u : Update) (r : Nat)
  | land (u : Update)
  | ask
  /-- The attempt at an update begins. -/
  | begin (u : Update)
  /-- The next request of an attempt is answered, or has failed. -/
  | answer (u : Update) (a : Answer)
  | settle (u : Update)
  /-- A worker adds an update again whose attempt has failed. -/
  | readd (u : Update)
  /-- A worker leaves an update undone. -/
  | abandon (u : Update)
  | done (u : Update)
  /-- The run is told to stop. -/
  | close
  /-- The run loses patience. -/
  | hurry
  /-- The run finds the queue idle. -/
  | drained
  /-- The run finds that all workers have left. -/
  | join

/-- **Mark** of a move, with what was reported. -/
inductive Mark where
  /-- An update without a host goes nowhere. -/
  | dropped (u : Update) (reports : List Report)
  | accepted (u : Update)
  /-- An update comes after the shutdown of the queue. -/
  | turnedAway (u : Update) (reports : List Report)
  | dispatched (u : Update) (reports : List Report)
  | requested (u : Update) (q : Request)
  | judged (u : Update) (v : Delivery.Verdict) (reports : List Report)
  | readded (u : Update) (wait : Duration)
  /-- An update is added again after the shutdown of the queue, which does not take it. -/
  | refused (u : Update) (reports : List Report)
  | abandoned (u : Update) (moment : Nat) (reports : List Report)
  | closed (moment : Nat)
  | hurried (moment : Nat) (reports : List Report)
  | returned
  deriving DecidableEq

/-- Number of workers. -/
def workers (settings : Settings) : Nat :=
  Nat.max settings.outbound.threads 1

/-- The run has just begun. -/
def start (settings : Settings) : Station :=
  let q := settings.outbound.queue
  { shift := .start q.name q.base q.max (workers settings) }

/-- The queue of a station. -/
abbrev queue (s : Station) : WorkQueue Update :=
  s.shift.queue

/-- How far the update in a worker's hand is. -/
abbrev stage? (s : Station) (u : Update) : Option Handling :=
  s.shift.desks.get? u

/-- Something is done to the queue. -/
def use (s : Station) (m : WorkQueue.Move Update) : Station :=
  { s with shift := s.shift.use m }

/-- The update in a worker's hand goes on. -/
def turn (s : Station) (u : Update) (h : Handling) : Station :=
  { s with shift := s.shift.turn u h }

/-! ## What moves do -/

/-- What the queue reports about an update that it does not take. -/
def refusalReports (s : Station) (delay : Duration) : List Report :=
  match s.queue.admission delay with
  | .refused => [.warn (SharedQueue.refusalText s.queue)]
  | _ => []

/-- The mark of the request that a conversation has come to. -/
def requestMarks (u : Update) : Call Outcome → List Mark
  | .ask q _ => [.requested u q]
  | .done _ => []

/-- An update is scheduled. -/
def schedule (settings : Settings) (s : Station) (u : Update) (r : Nat) : Station × List Mark :=
  let jitter := Delivery.Jitter.draw settings.outbound.minJitter settings.outbound.maxJitter r
  if u.host = "" then (s, [.dropped u [Delivery.noHostReport u]])
  else
    (s.use (.addAfter u (.ofMillis jitter)),
      if s.queue.closed then [.turnedAway u (s.refusalReports (.ofMillis jitter))] else [.accepted u])

/-- The attempt at an update begins. -/
def begin (s : Station) (u : Update) : Station × List Mark :=
  (s.turn u (.asking (dispatch u).2), .dispatched u (dispatch u).1 :: requestMarks u (dispatch u).2)

/-- An attempt goes on with an answer. -/
def answer (s : Station) (u : Update) (a : Answer) : Station × List Mark :=
  match s.stage? u with
  | some (.asking (.ask _ next)) => (s.turn u (.asking (next a)), requestMarks u (next a))
  | _ => (s, [])

/-- The verdict on an attempt. -/
def settle (settings : Settings) (s : Station) (u : Update) : Station × List Mark :=
  match s.stage? u with
  | some (.asking (.done o)) =>
    let limit := settings.outbound.retryCount
    let v := Delivery.verdict limit (s.queue.requeues u) o.result
    let mark := .judged u v
      (o.reports ++ Delivery.attemptReports limit (s.queue.requeues u) u o.result)
    match v with
    | .again _ => ((s.use (.recordFailure u)).turn u (.again (s.queue.backoff.wait u)), [mark])
    | _ => ((s.use (.forget u)).turn u .settled, [mark])
  | _ => (s, [])

/-- An update is added again. -/
def readd (s : Station) (u : Update) : Station × List Mark :=
  match s.stage? u with
  | some (.again wait) =>
    ((s.use (.addAfter u wait)).turn u .settled,
      if s.queue.closed then [.refused u (s.refusalReports wait)] else [.readded u wait])
  | _ => (s, [])

/-- An update is left undone. -/
def abandon (s : Station) (u : Update) : Station × List Mark :=
  ((s.use (.forget u)).turn u .settled, [.abandoned u s.now [Delivery.abandonReport u]])

/-- **What a move does**, and the marks that it leaves. -/
def act (settings : Settings) (s : Station) : Move → Station × List Mark
  | .pass millis => ({ s with now := s.now + millis }, [])
  | .schedule u r => s.schedule settings u r
  | .land u => (s.use (.land u), [])
  | .ask => ({ s with shift := s.shift.ask .fresh }, [])
  | .begin u => s.begin u
  | .answer u a => s.answer u a
  | .settle u => s.settle settings u
  | .readd u => s.readd u
  | .abandon u => s.abandon u
  | .done u => ({ s with shift := s.shift.done u }, [])
  | .close => ({ s with shift := s.shift.close, closedAt := s.now }, [.closed s.now])
  | .hurry => ({ s with hardStop := true }, [.hurried s.now [Delivery.graceReport]])
  | .drained => ({ s with shift := s.shift.drained }, [])
  | .join => ({ s with shift := s.shift.join }, [.returned])

/-- The moment at which patience runs out. -/
def graceEnd (s : Station) : Nat :=
  s.closedAt + 1000 * Delivery.graceSeconds

/-- Updates may be scheduled and time may go on at any moment; all else has to be due. -/
def allows (settings : Settings) (s : Station) : Move → Bool
  | .pass _ => true
  | .schedule _ _ => true
  | .land u => s.shift.crew.floor.coming.contains u
  | .ask => 0 < s.shift.crew.free
  | .begin u =>
    match s.stage? u with
    | some .fresh => !s.hardStop
    | _ => false
  | .answer u _ =>
    match s.stage? u with
    | some (.asking (.ask _ _)) => !s.hardStop
    | _ => false
  | .settle u =>
    match s.stage? u with
    | some (.asking (.done _)) => true
    | _ => false
  | .readd u =>
    match s.stage? u with
    | some (.again _) => true
    | _ => false
  | .abandon u =>
    match s.stage? u with
    | some .fresh => s.hardStop
    | some (.asking (.ask _ _)) => s.hardStop
    | _ => false
  | .done u =>
    match s.stage? u with
    | some .settled => true
    | _ => false
  | .close => s.shift.phase = .running
  | .hurry => s.shift.phase = .draining ∧ s.hardStop = false ∧ s.graceEnd ≤ s.now
  | .drained => s.shift.phase = .draining ∧ s.queue.isIdle = true
  | .join => s.shift.phase = .joining ∧ s.shift.crew.gone = workers settings

/-- **The machine of a station**: its legal runs are all interleavings of producers, timers, workers and
the run itself, with all delays that can be drawn and all answers of border servers. -/
def machine (settings : Settings) : Machine Station Move where
  allows := allows settings
  next s m := (act settings s m).1

/-- The marks of a run. -/
def history (settings : Settings) (s : Station) (ms : List Move) : List Mark :=
  (machine settings).log (fun s m => (act settings s m).2) s ms

end Station

end BorderSync
