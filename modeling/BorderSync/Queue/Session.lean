/-
# BorderSync.Queue.Session -- one queue, with consumers and drains by name

A session lets named consumers each wait for one item and named drains wait for the end, while
items are added and done from outside. After every request all tasks that can run have run.
-/
import BorderSync.Queue.Drain

namespace BorderSync

/-- What a task of a session does. -/
inductive QueueTask where
  | consumer (name : String)
  | drain (name : String) (drain : Drain)
  | landing (item : String) (delay : Duration) (started : Bool)

/-- **Session** with one queue. -/
structure QueueSession where
  clock : Clock := {}
  shared : SharedQueue String
  tasks : List (TaskId × QueueTask) := []
  /-- Consumers that have finished since this was last asked for, with what they got. -/
  got : List (String × Option String) := []
  /-- Drains that have finished since this was last asked for. -/
  drained : List String := []
  reports : List (Nat × Report) := []

namespace QueueSession

/-- A session with a new queue. -/
def new (name : String) (base max : Duration) : QueueSession :=
  { shared := ⟨.new name base max, {}, {}⟩ }

/-- Replace what a task does. -/
def setTask (s : QueueSession) (t : TaskId) (task : QueueTask) : QueueSession :=
  { s with tasks := s.tasks.map fun e => if e.1 == t then (t, task) else e }

/-- End a task. -/
def endTask (s : QueueSession) (t : TaskId) : QueueSession :=
  { s with tasks := s.tasks.filter fun e => e.1 != t }

/-- Begin a task. -/
def spawn (s : QueueSession) (task : QueueTask) : QueueSession :=
  let (clock, t) := s.clock.spawn
  { s with clock := clock, tasks := s.tasks ++ [(t, task)] }

/-- Go on with a shared queue after tasks were woken. -/
def become (s : QueueSession) (r : SharedQueue String × List TaskId) : QueueSession :=
  { s with shared := r.1, clock := s.clock.wakeAll r.2 }

/-- Note reports at the present moment. -/
def note (s : QueueSession) (rs : List Report) : QueueSession :=
  { s with reports := s.reports ++ rs.map fun r => (s.clock.now, r) }

/-- The turn of a consumer. -/
def turnConsumer (s : QueueSession) (t : TaskId) (name : String) : QueueSession :=
  let (shared, hand, woken) := s.shared.consult t
  let s := s.become (shared, woken)
  match hand with
  | .notYet => s
  | .item x => { s.endTask t with got := s.got ++ [(name, some x)] }
  | .finished => { s.endTask t with got := s.got ++ [(name, none)] }

/-- The turn of a drain. -/
def turnDrain (s : QueueSession) (t : TaskId) (name : String) (d : Drain) : QueueSession :=
  let r := d.turn t s.shared s.clock
  let s := { s with shared := r.shared, clock := r.clock }.note r.reports
  if r.ended then { s.endTask t with drained := s.drained ++ [name] }
  else s.setTask t (.drain name r.drain)

/-- The turn of an item that lands later: first it starts its timer, then it lands. -/
def turnLanding (s : QueueSession) (t : TaskId) (x : String) (delay : Duration) (started : Bool) :
    QueueSession :=
  if started then (s.endTask t).become (s.shared.land x)
  else
    { s with clock := s.clock.start t (s.clock.now + delay.ceilMillis) }.setTask t
      (.landing x delay true)

/-- The turn of a task. -/
def turn (t : TaskId) (s : QueueSession) : QueueSession :=
  match s.tasks.lookup t with
  | none => s
  | some (.consumer name) => s.turnConsumer t name
  | some (.drain name d) => s.turnDrain t name d
  | some (.landing x delay started) => s.turnLanding t x delay started

instance : Tasks QueueSession where
  clock := QueueSession.clock
  withClock s c := { s with clock := c }
  turn := turn

/-! ## Requests -/

/-- Add an item after a delay. -/
def addAfter (s : QueueSession) (x : String) (delay : Duration) : QueueSession :=
  match s.shared.queue.admission delay with
  | .now => s.become (s.shared.add x)
  | .refused => s.note [.warn (SharedQueue.refusalText s.shared.queue)]
  | .later =>
    { s with shared := { s.shared with queue := s.shared.queue.announce } }.spawn
      (.landing x delay false)

/-- Add an item after the wait that its failures earn. -/
def addRateLimited (s : QueueSession) (x : String) : QueueSession :=
  let delay := s.shared.queue.backoff.wait x
  { s with shared := { s.shared with queue := s.shared.queue.recordFailure x } }.addAfter x delay

/-- Stop a consumer that still waits. -/
def abort (s : QueueSession) (name : String) : QueueSession :=
  let mine := s.tasks.filterMap fun e =>
    match e.2 with
    | .consumer n => if n == name then some e.1 else none
    | _ => none
  mine.foldl (fun s t => { s.endTask t with shared := s.shared.abandon t }) s

/-- What can be asked of a session. -/
inductive Request where
  | add (x : String)
  | addAfter (x : String) (delay : Duration)
  | addRateLimited (x : String)
  | done (x : String)
  | forget (x : String)
  | shutDown
  | get (name : String)
  | abort (name : String)
  | drain (name : String)
  | advance (millis : Nat)

/-- A bound on the turns at one moment, and on the moments of one request. -/
def bound : Nat := 1000000

/-- The session right after a request, before tasks have run. -/
def apply (s : QueueSession) : Request → QueueSession
  | .add x => s.become (s.shared.add x)
  | .addAfter x delay => s.addAfter x delay
  | .addRateLimited x => s.addRateLimited x
  | .done x => s.become (s.shared.done x)
  | .forget x => { s with shared := s.shared.forget x }
  | .shutDown => s.become s.shared.shutDown
  | .get name => s.spawn (.consumer name)
  | .abort name => s.abort name
  | .drain name => s.spawn (.drain name {})
  | .advance millis => Tasks.runUntil bound bound (s.clock.now + millis) s

/-- **Serve a request** and let all tasks run that can. -/
def serve (s : QueueSession) (r : Request) : QueueSession :=
  Tasks.settle bound ({ s with got := [], drained := [] }.apply r)

/-- Names of the consumers that still wait. -/
def waitingNames (s : QueueSession) : List String :=
  (s.tasks.filterMap fun e => match e.2 with | .consumer n => some n | _ => none).mergeSort (· ≤ ·)

/-- Names of the drains that still wait. -/
def drainingNames (s : QueueSession) : List String :=
  (s.tasks.filterMap fun e => match e.2 with | .drain n _ => some n | _ => none).mergeSort (· ≤ ·)

end QueueSession

end BorderSync
