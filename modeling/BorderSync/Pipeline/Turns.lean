/-
# BorderSync.Pipeline.Turns -- what tasks do when they have their turn

A consumer or worker goes on until its queue has nothing for it. A worker that has sent a request
waits for the answer; a run starts its consumers or workers, waits to be cancelled, drains its side
and waits for those it has started.
-/
import BorderSync.Pipeline.Basic

namespace BorderSync.Pipeline

open Event

/-- A bound on the items that one turn handles. -/
def turnBound : Nat := 1000000

/-! ## Ends -/

/-- The run that started a consumer or worker. -/
def startedBy (run : TaskId) : PipelineTask → Bool
  | .consumer r => r == run
  | .worker r _ => r == run
  | _ => false

/-- A consumer or worker is finished; its run may have waited for that. -/
def leave (p : Pipeline) (t run : TaskId) : Pipeline :=
  let p := p.endTask t
  match p.tasks.lookup run with
  | some (.run _ .joining) => p.wakeAll [run]
  | _ => p

/-! ## Consumers -/

/-- The turn of a consumer. -/
def turnConsumer (t run : TaskId) : (n : Nat) → Pipeline → Pipeline
  | 0, p => p
  | n + 1, p =>
    let (shared, hand, woken) := p.inbound.consult t
    let p := p.withInbound (shared, woken)
    match hand with
    | .notYet => p
    | .finished => p.leave t run
    | .item c =>
      let p := p.handleChange c
      turnConsumer t run n (p.withInbound (p.inbound.done c))

/-! ## Workers -/

/-- Go on with a conversation until an answer is awaited or it ends. -/
def converse (t run : TaskId) (u : Update) (c : Border.Call Border.Outcome) (p : Pipeline) :
    Pipeline × Option Border.Outcome :=
  match c with
  | .done o => (p, some o)
  | .ask q next =>
    if q.location.scheme = "http" ∨ q.location.scheme = "https" then
      let (answer, millis, p) := p.send q
      let due := p.clock.now + millis
      let p := p.setTask t (.worker run (some ⟨u, answer, next, due⟩))
      (if millis = 0 then p.wakeAll [t] else p.startTimer t due, none)
    else converse t run u (next (.error .unsupportedScheme)) p

/-- An update was handled. -/
def finishUpdate (p : Pipeline) (t run : TaskId) (u : Update) : Pipeline :=
  (p.setTask t (.worker run none)).withOutbound (p.outbound.done u)

/-- Begin to carry out an update; `true` says that it was handled at once. -/
def begin (t run : TaskId) (u : Update) (p : Pipeline) : Pipeline × Bool :=
  if p.hardStop then ((p.abandon u).finishUpdate t run u, true)
  else
    let (early, call) := Border.dispatch u
    match converse t run u call (p.note early) with
    | (p, none) => (p, false)
    | (p, some o) => ((p.settleAttempt u o).finishUpdate t run u, true)

/-- A worker without an update asks for the next one. -/
def turnIdleWorker (t run : TaskId) : (n : Nat) → Pipeline → Pipeline
  | 0, p => p
  | n + 1, p =>
    let (shared, hand, woken) := p.outbound.consult t
    let p := p.withOutbound (shared, woken)
    match hand with
    | .notYet => p
    | .finished => p.leave t run
    | .item u =>
      match begin t run u p with
      | (p, true) => turnIdleWorker t run n p
      | (p, false) => p

/-- The turn of a worker. -/
def turnWorker (t run : TaskId) (e : Option Exchange) (p : Pipeline) : Pipeline :=
  match e with
  | none => turnIdleWorker t run turnBound p
  | some e =>
    if p.hardStop then
      let p := { p with clock := p.clock.stopAll t }
      turnIdleWorker t run turnBound ((p.abandon e.update).finishUpdate t run e.update)
    else if e.due ≤ p.clock.now then
      match converse t run e.update (e.next e.answer) p with
      | (p, none) => p
      | (p, some o) =>
        turnIdleWorker t run turnBound ((p.settleAttempt e.update o).finishUpdate t run e.update)
    else p

/-! ## Ends of sides -/

/-- The turn of a drain on one side. -/
def turnDrain (p : Pipeline) (t : TaskId) (side : Side) (d : Drain) : Pipeline × Drain × Bool :=
  match side with
  | .inbound =>
    let r := d.turn t p.inbound p.clock
    ({ p with inbound := r.shared, clock := r.clock }.note r.reports, r.drain, r.ended)
  | .outbound =>
    let r := d.turn t p.outbound p.clock
    ({ p with outbound := r.shared, clock := r.clock }.note r.reports, r.drain, r.ended)

/-- The workers that await an answer. -/
def busyWorkers (p : Pipeline) : List TaskId :=
  p.tasks.filterMap fun e =>
    match e.2 with
    | .worker _ (some _) => some e.1
    | _ => none

/-- Patience is over: workers leave what they are at, and a new drain begins. -/
def loseGrace (p : Pipeline) (t : TaskId) (c : Closing) : Pipeline × Closing × Bool :=
  let p := p.note [Delivery.graceReport]
  let (shared, clock) := c.drain.dismiss t p.outbound p.clock
  let p := { p with outbound := shared, clock := clock, hardStop := true }.wakeAll
    (busyWorkers p)
  let (p, d, ended) := p.turnDrain t .outbound {}
  (p, { drain := d, graceOver := true }, ended)

/-- The turn of a shutdown; `true` says that it has ended. Only the outbound side loses patience. -/
def turnClosing (p : Pipeline) (t : TaskId) (side : Side) (c : Closing) :
    Pipeline × Closing × Bool :=
  let (p, d, ended) := p.turnDrain t side c.drain
  if ended then ({ p with clock := p.clock.stopAll t }, { c with drain := d }, true)
  else
    match side, c.graceOver, c.graceAt with
    | .outbound, false, none =>
      let due := p.clock.now + 1000 * Delivery.graceSeconds
      (p.startTimer t due, { drain := d, graceAt := some due }, false)
    | .outbound, false, some due =>
      if due ≤ p.clock.now then p.loseGrace t { c with drain := d }
      else (p, { c with drain := d }, false)
    | _, _, _ => (p, { c with drain := d }, false)

/-! ## Runs -/

/-- The report at the start of a run. -/
def startedReport (s : Settings) : Side → Report
  | .inbound => .info ("🚀 Handler started (" ++ toString (Nat.max s.inbound.threads 1) ++ " consumers)")
  | .outbound =>
    .info ("🚀 Synchronizer started (" ++ toString (Nat.max s.outbound.threads 1) ++ " workers)")

/-- The report at the end of a run. -/
def stoppedReport : Side → Report
  | .inbound => .info "🛑 Handler stopped"
  | .outbound => .info "🛑 Synchronizer stopped"

/-- Start the consumers or workers of a run. -/
def startAll (p : Pipeline) (t : TaskId) : Side → Pipeline
  | .inbound => p.spawnMany (Nat.max p.settings.inbound.threads 1) (.consumer t)
  | .outbound => p.spawnMany (Nat.max p.settings.outbound.threads 1) (.worker t none)

/-- The side was told to stop. -/
def isCancelled (p : Pipeline) : Side → Bool
  | .inbound => p.inboundCancelled
  | .outbound => p.outboundCancelled

/-- A run ends when all that it has started have left. -/
def turnJoining (p : Pipeline) (t : TaskId) (side : Side) : Pipeline :=
  if p.tasks.any fun e => startedBy t e.2 then p.setTask t (.run side .joining)
  else (p.endTask t).note [stoppedReport side]

/-- A run that drains its side. -/
def turnRunClosing (p : Pipeline) (t : TaskId) (side : Side) (c : Closing) : Pipeline :=
  match p.turnClosing t side c with
  | (p, _, true) => p.turnJoining t side
  | (p, c, false) => p.setTask t (.run side (.closing c))

/-- A run that waits to be cancelled. -/
def turnRunning (p : Pipeline) (t : TaskId) (side : Side) : Pipeline :=
  if p.isCancelled side then p.turnRunClosing t side {} else p.setTask t (.run side .running)

/-- The turn of a run. -/
def turnRun (p : Pipeline) (t : TaskId) (side : Side) : RunPhase → Pipeline
  | .starting => ((p.note [startedReport p.settings side]).startAll t side).turnRunning t side
  | .running => p.turnRunning t side
  | .closing c => p.turnRunClosing t side c
  | .joining => p.turnJoining t side

/-- The turn of a shutdown on its own. -/
def turnShutDown (p : Pipeline) (t : TaskId) (side : Side) (c : Closing) : Pipeline :=
  match p.turnClosing t side c with
  | (p, _, true) => { p.endTask t with drained := p.drained ++ [side] }
  | (p, c, false) => p.setTask t (.shutDown side c)

/-- **The turn of a task.** -/
def turn (t : TaskId) (p : Pipeline) : Pipeline :=
  match p.tasks.lookup t with
  | none => p
  | some (.landChange c delay started) =>
    if started then (p.endTask t).withInbound (p.inbound.land c)
    else (p.startTimer t (p.clock.now + delay.ceilMillis)).setTask t (.landChange c delay true)
  | some (.landUpdate u delay started) =>
    if started then (p.endTask t).withOutbound (p.outbound.land u)
    else (p.startTimer t (p.clock.now + delay.ceilMillis)).setTask t (.landUpdate u delay true)
  | some (.consumer run) => turnConsumer t run turnBound p
  | some (.worker run e) => p.turnWorker t run e
  | some (.run side phase) => p.turnRun t side phase
  | some (.shutDown side c) => p.turnShutDown t side c

instance : Tasks Pipeline where
  clock := Pipeline.clock
  withClock p c := { p with clock := c }
  turn := turn

end BorderSync.Pipeline
