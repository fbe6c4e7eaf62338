/-
# BorderSync.Pipeline.Basic -- the state of a running pipeline

A pipeline has an inbound queue of changes, which consumers turn into updates, and an outbound queue of
addressed updates, which workers carry out on border servers. Both sides are started, told to stop
and drained on their own. This module holds the state and the steps that tasks are made of.
-/
import BorderSync.Border.Dispatch
import BorderSync.Border.Script
import BorderSync.Delivery.FanOut
import BorderSync.Delivery.Jitter
import BorderSync.Delivery.Retry
import BorderSync.Plan
import BorderSync.Queue.Drain
import BorderSync.Settings.Basic
import BorderSync.Table

namespace BorderSync

open Event

/-- The two sides of a pipeline. -/
inductive Side where
  /-- Changes are taken in and planned for. -/
  | inbound
  /-- Updates are carried out on border servers. -/
  | outbound
  deriving DecidableEq, Repr

/-- Waiting for the end of a side: the drain, and the moment at which patience ends. -/
structure Closing where
  drain : Drain := {}
  graceAt : Option Nat := none
  graceOver : Bool := false
  deriving Repr

/-- How far the run of a side has come. -/
inductive RunPhase where
  | starting
  | running
  | closing (c : Closing)
  | joining

/-- A request that was sent, and when its answer comes. -/
structure Exchange where
  update : Update
  answer : Border.Answer
  next : Border.Answer → Border.Call Border.Outcome
  due : Nat

/-- What a task of a pipeline does. -/
inductive PipelineTask where
  | landChange (c : Change) (delay : Duration) (started : Bool)
  | landUpdate (u : Update) (delay : Duration) (started : Bool)
  | consumer (run : TaskId)
  | worker (run : TaskId) (exchange : Option Exchange)
  | run (side : Side) (phase : RunPhase)
  | shutDown (side : Side) (closing : Closing)

/-- **Pipeline** between a cluster and border servers. -/
structure Pipeline where
  settings : Settings
  line : Border.Line := {}
  /-- The answers that border servers have left, by place. -/
  scripts : Table String (List Border.Prepared) := {}
  clock : Clock := {}
  cache : Cluster.Cache := .empty
  inbound : SharedQueue Change
  outbound : SharedQueue Update
  /-- Number of tokens and delays drawn so far. -/
  draws : Nat := 0
  tasks : List (TaskId × PipelineTask) := []
  inboundCancelled : Bool := false
  outboundCancelled : Bool := false
  hardStop : Bool := false
  /-- Requests that border servers saw, by the place of the servers asked about, with moments. -/
  requests : List (String × Nat × Border.Request) := []
  /-- Shutdowns that have finished since this was last asked for. -/
  drained : List Side := []
  reports : List (Nat × Report) := []

namespace Pipeline

/-- A shared queue with the given settings. -/
def queueOf {α : Type} [BEq α] (q : QueueSettings) : SharedQueue α :=
  ⟨.new q.name q.base q.max, {}, {}⟩

/-- A pipeline in which nothing has happened. -/
def new (settings : Settings) (line : Border.Line)
    (scripts : Table String (List Border.Prepared)) : Pipeline :=
  { settings := settings
    line := line
    scripts := scripts
    inbound := queueOf settings.inbound.queue
    outbound := queueOf settings.outbound.queue }

/-! ## Tasks, calls and reports -/

/-- Replace what a task does. -/
def setTask (p : Pipeline) (t : TaskId) (task : PipelineTask) : Pipeline :=
  { p with tasks := p.tasks.map fun e => if e.1 == t then (t, task) else e }

/-- Begin a task. -/
def spawn (p : Pipeline) (task : PipelineTask) : Pipeline :=
  let (clock, t) := p.clock.spawn
  { p with clock := clock, tasks := p.tasks ++ [(t, task)] }

/-- Begin a number of equal tasks. -/
def spawnMany (p : Pipeline) (n : Nat) (task : PipelineTask) : Pipeline :=
  n.repeat (fun p => p.spawn task) p

/-- End a task. -/
def endTask (p : Pipeline) (t : TaskId) : Pipeline :=
  { p with tasks := p.tasks.filter fun e => e.1 != t }

/-- Make tasks ready. -/
def wakeAll (p : Pipeline) (ts : List TaskId) : Pipeline :=
  { p with clock := p.clock.wakeAll ts }

/-- Start a timer of a task. -/
def startTimer (p : Pipeline) (t : TaskId) (due : Nat) : Pipeline :=
  { p with clock := p.clock.start t due }

/-- Note reports at the present moment. -/
def note (p : Pipeline) (rs : List Report) : Pipeline :=
  { p with reports := p.reports ++ rs.map fun r => (p.clock.now, r) }

/-- Go on with an inbound queue after tasks were woken. -/
def withInbound (p : Pipeline) (r : SharedQueue Change × List TaskId) : Pipeline :=
  { p with inbound := r.1 }.wakeAll r.2

/-- Go on with an outbound queue after tasks were woken. -/
def withOutbound (p : Pipeline) (r : SharedQueue Update × List TaskId) : Pipeline :=
  { p with outbound := r.1 }.wakeAll r.2

/-! ## Adding to the queues -/

/-- Add a change after a delay. -/
def addChangeAfter (p : Pipeline) (c : Change) (delay : Duration) : Pipeline :=
  match p.inbound.queue.admission delay with
  | .now => p.withInbound (p.inbound.add c)
  | .refused => p.note [.warn (SharedQueue.refusalText p.inbound.queue)]
  | .later =>
    { p with inbound := { p.inbound with queue := p.inbound.queue.announce } }.spawn
      (.landChange c delay false)

/-- Add a change after the wait that its failures earn. -/
def addChangeRateLimited (p : Pipeline) (c : Change) : Pipeline :=
  let delay := p.inbound.queue.backoff.wait c
  { p with inbound := { p.inbound with queue := p.inbound.queue.recordFailure c } }.addChangeAfter
    c delay

/-- Add an update after a delay. -/
def addUpdateAfter (p : Pipeline) (u : Update) (delay : Duration) : Pipeline :=
  match p.outbound.queue.admission delay with
  | .now => p.withOutbound (p.outbound.add u)
  | .refused => p.note [.warn (SharedQueue.refusalText p.outbound.queue)]
  | .later =>
    { p with outbound := { p.outbound with queue := p.outbound.queue.announce } }.spawn
      (.landUpdate u delay false)

/-- Add an update after the wait that its failures earn. -/
def addUpdateRateLimited (p : Pipeline) (u : Update) : Pipeline :=
  let delay := p.outbound.queue.backoff.wait u
  { p with outbound := { p.outbound with queue := p.outbound.queue.recordFailure u } }.addUpdateAfter
    u delay

/-- Schedule an addressed update after a drawn delay. -/
def schedule (p : Pipeline) (u : Update) : Pipeline :=
  if u.host = "" then p.note [Delivery.noHostReport u]
  else
    let s := p.settings.outbound
    { p with draws := p.draws + 1 }.addUpdateAfter u
      (.ofMillis (Delivery.Jitter.draw s.minJitter s.maxJitter p.draws))

/-- **Schedule one copy of every update for every host.** -/
def fanOut (p : Pipeline) (us : List Update) : Pipeline :=
  let hosts := p.settings.hosts
  if hosts.isEmpty then p.note [Delivery.noHostsReport us]
  else
    let tokens := Delivery.consecutiveTokens p.draws us.length
    (Delivery.copies hosts us tokens).foldl schedule
      { p with draws := p.draws + hosts.length * us.length }

/-! ## Handling one item -/

/-- The report about a change without a plan. -/
def planlessReport (c : Change) (e : Error) : Report :=
  .error ("❌ Handler::handle_event: failed to translate " ++ c.kind.text ++ " " ++ c.label ++ ": "
    ++ e.message)

/-- **Handle a change**: plan for it and schedule what the plan asks for. A change without a plan is
dropped. -/
def handleChange (p : Pipeline) (c : Change) : Pipeline :=
  let p := match Plan.ofChange p.cache c with
    | .ok r => ({ p with cache := r.cache }.note r.reports).fanOut r.updates
    | .error e => p.note [planlessReport c e]
  { p with inbound := p.inbound.forget c }

/-- The place of the servers that a request asks about. -/
def serversPlace (q : Border.Request) : String :=
  let mark := "/servers".toList.reverse
  let rec cut : List Char → List Char
    | [] => []
    | c :: rest => if mark.isPrefixOf (c :: rest) then c :: rest else cut rest
  let text := q.location.text.toList
  match cut text.reverse with
  | [] => q.location.text
  | found => String.ofList found.reverse

/-- Send a request: the answer, how long it takes, and the pipeline afterwards. -/
def send (p : Pipeline) (q : Border.Request) : Border.Answer × Nat × Pipeline :=
  match Border.unsentFault? p.line q with
  | some fault => (.error fault, 0, p)
  | none =>
    let place := serversPlace q
    let (prepared, rest) := Border.nextPrepared q.method ((p.scripts.get? place).getD [])
    let (answer, millis) := prepared.outcome p.line
    (answer, millis, { p with
      scripts := p.scripts.insert place rest
      requests := p.requests ++ [(place, p.clock.now, q)] })

/-- Apply the verdict on an attempt. -/
def settleAttempt (p : Pipeline) (u : Update) (o : Border.Outcome) : Pipeline :=
  let limit := p.settings.outbound.retryCount
  let requeues := p.outbound.queue.requeues u
  let p := p.note (o.reports ++ Delivery.attemptReports limit requeues u o.result)
  match Delivery.verdict limit requeues o.result with
  | .again _ => p.addUpdateRateLimited u
  | _ => { p with outbound := p.outbound.forget u }

/-- Leave an update undone. -/
def abandon (p : Pipeline) (u : Update) : Pipeline :=
  { p.note [Delivery.abandonReport u] with outbound := p.outbound.forget u }

end Pipeline

end BorderSync
