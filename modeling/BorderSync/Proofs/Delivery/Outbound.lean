/-
# BorderSync.Proofs.Delivery.Outbound -- updates on their way to border servers

A change is translated into updates, and a copy of every update goes to every host: it is scheduled with
a drawn delay, lands in the outbound queue, is taken by a worker, carried out request by request, and
settled. Translations, timers and workers go on at the same time; a move is what one of them does while no
other can come in between. The border servers grant every request, and nobody else writes to them.

The copies that were made and not yet scheduled may be scheduled in any order, and the cache at the
moment of a translation is left open, so that the runs include those of several handlers. Places that
differ in any part are taken to be different upstreams.
-/
import BorderSync.Delivery.FanOut
import BorderSync.Delivery.Jitter
import BorderSync.Delivery.Retry
import BorderSync.Proofs.Border.Update
import BorderSync.Proofs.Delivery.Copies
import BorderSync.Proofs.Plan
import BorderSync.Proofs.Queue.Load
import BorderSync.Settings.Basic
import BorderSync.Table

namespace BorderSync

open Border Event
open Endpoint (Location)

/-- **Stage** of an update that a worker has in hand. -/
inductive Stage where
  | asking (call : Call Outcome)
  /-- The attempt has failed, and the update is to be added again after a wait. -/
  | again (wait : Duration)
  | settled

/-- The attempt at an update begins. -/
def Stage.opening (u : Update) : Stage :=
  .asking (dispatch u).2

/-- **Outbound** side: copies on their way, attempts in progress, and what border servers hold. -/
structure Outbound where
  floor : WorkQueue.Floor Update
  /-- Copies that were made and have not been scheduled. -/
  unsent : List Update := []
  stages : Table Update Stage := {}
  shelves : Table Location Shelf := {}

namespace Outbound

/-- **Move** of a translation, of a timer or of a worker. -/
inductive Move where
  /-- A change is translated, and copied to all hosts. -/
  | translate (cache : Cluster.Cache) (c : Change) (tokens : Nat → Nat → String)
  /-- A copy is scheduled; the number picks its delay. -/
  | schedule (u : Update) (r : Nat)
  | land (u : Update)
  /-- A worker looks for an update. -/
  | take
  /-- The border server answers the next request of an attempt. -/
  | answer (u : Update) (a : Answer) (id : Int)
  | settle (u : Update)
  /-- A worker adds an update again whose attempt has failed. -/
  | readd (u : Update)
  | done (u : Update)

/-- Nothing is under way. -/
def start (settings : Settings) (shelves : Table Location Shelf) : Outbound :=
  let q := settings.outbound.queue
  { floor := .start q.name q.base q.max, shelves := shelves }

/-- The updates that a change asks for. -/
def planned (cache : Cluster.Cache) (c : Change) : List Update :=
  match Plan.ofChange cache c with
  | .ok r => r.updates
  | .error _ => []

/-- A change that is no deletion asks for what its body says. -/
theorem planned_body (cache : Cluster.Cache) {c : Change} (hkind : c.kind ≠ .deleted)
    (hname : c.service.name.isSome = true) :
    planned cache c = Plan.updatesOf c.kind c.service c.nodes := by
  obtain ⟨name, hname⟩ := Option.isSome_iff_exists.mp hname
  have hkey : Cluster.Key.ofService? c.service = some ⟨c.service.space, name⟩ := by
    simp [Cluster.Key.ofService?, hname]
  unfold planned
  rw [Plan.ofChange_body cache hkind hkey]
  rfl

/-- Every update is copied to every host. -/
theorem exists_copy {hosts : List String} {h : String} (hh : h ∈ hosts) {updates : List Update}
    {v : Update} (hv : v ∈ updates) (tokens : Nat → Nat → String) :
    ∃ id, v.addressed id h ∈ Delivery.copies hosts updates tokens := by
  obtain ⟨i, hi⟩ := List.mem_iff_getElem?.mp hh
  obtain ⟨j, hj⟩ := List.mem_iff_getElem?.mp hv
  exact ⟨_, Delivery.copyFor_mem tokens hi hj⟩

/-- What the servers hold at a place. -/
def shelf (s : Outbound) (l : Location) : Shelf :=
  (s.shelves.get? l).getD []

/-- The request that an attempt waits for, and how it goes on. -/
def asked? (s : Outbound) (u : Update) : Option (Request × (Answer → Call Outcome)) :=
  match s.stages.get? u with
  | some (.asking (.ask q next)) => some (q, next)
  | _ => none

/-- The kind of upstream that an update is for. -/
def contextOf (u : Update) : Context :=
  (Manager.context? u.clientType).getD .http

/-- A copy is scheduled. -/
def schedule (settings : Settings) (s : Outbound) (u : Update) (r : Nat) : Outbound :=
  let jitter := Delivery.Jitter.draw settings.outbound.minJitter settings.outbound.maxJitter r
  { s with
    unsent := s.unsent.erase u
    floor := if u.host = "" then s.floor else s.floor.addAfter u (.ofMillis jitter) }

/-- A worker looks for an update. -/
def take (s : Outbound) : Outbound :=
  { s with
    floor := s.floor.take
    stages := match s.floor.queue.hand with
      | .item u => s.stages.insert u (.opening u)
      | _ => s.stages }

/-- The border server answers the next request of an attempt. -/
def answer (s : Outbound) (u : Update) (a : Answer) (id : Int) : Outbound :=
  match s.asked? u with
  | some (q, next) =>
    { s with
      stages := s.stages.insert u (.asking (next a))
      shelves := s.shelves.insert q.place ((s.shelf q.place).serve (contextOf u) q id) }
  | none => s

/-- The verdict on an attempt. -/
def settle (settings : Settings) (s : Outbound) (u : Update) : Outbound :=
  match s.stages.get? u with
  | some (.asking (.done o)) =>
    match Delivery.verdict settings.outbound.retryCount (s.floor.queue.requeues u) o.result with
    | .again _ =>
      { s with
        floor := s.floor.next (.recordFailure u)
        stages := s.stages.insert u (.again (s.floor.queue.backoff.wait u)) }
    | _ =>
      { s with
        floor := s.floor.next (.forget u)
        stages := s.stages.insert u .settled }
  | _ => s

/-- An update is added again. -/
def readd (s : Outbound) (u : Update) : Outbound :=
  match s.stages.get? u with
  | some (.again wait) =>
    { s with floor := s.floor.addAfter u wait, stages := s.stages.insert u .settled }
  | _ => s

/-- The state after a move. -/
def next (settings : Settings) (s : Outbound) : Move → Outbound
  | .translate cache c tokens =>
    { s with unsent := s.unsent ++ Delivery.copies settings.hosts (planned cache c) tokens }
  | .schedule u r => s.schedule settings u r
  | .land u => { s with floor := s.floor.next (.land u) }
  | .take => s.take
  | .answer u a id => s.answer u a id
  | .settle u => s.settle settings u
  | .readd u => s.readd u
  | .done u => { s with floor := s.floor.next (.done u), stages := s.stages.erase u }

/-- A worker has one update in hand at a time, and every request is granted. -/
def allows (settings : Settings) (s : Outbound) : Move → Bool
  | .translate _ _ _ => true
  | .schedule u _ => s.unsent.contains u
  | .land u => s.floor.coming.contains u
  | .take => s.floor.hands.length < Nat.max settings.outbound.threads 1
  | .answer u a id =>
    match s.asked? u with
    | some (q, _) => (s.shelf q.place).grants (contextOf u) q id a
    | none => false
  | .settle u =>
    match s.stages.get? u with
    | some (.asking (.done _)) => true
    | _ => false
  | .readd u =>
    match s.stages.get? u with
    | some (.again _) => true
    | _ => false
  | .done u =>
    match s.stages.get? u with
    | some .settled => true
    | _ => false

/-- **The machine of the outbound side**: its legal runs are all interleavings of translations, timers and
workers, with all delays that can be drawn. -/
def machine (settings : Settings) : Machine Outbound Move :=
  ⟨allows settings, next settings⟩

/-- Every copy is scheduled, and the queue is idle. -/
def isIdle (s : Outbound) : Bool :=
  s.unsent.isEmpty && s.floor.queue.isIdle

/-- **Mark** of a request that a border server has granted. -/
inductive Mark where
  /-- An attempt at this update has listed what is held at a place. -/
  | listed (u : Update) (l : Location)
  /-- An attempt at this update has posted or deleted there. -/
  | wrote (u : Update) (l : Location)
  deriving DecidableEq, Repr

/-- The marks of a move. -/
def marks (s : Outbound) : Move → List Mark
  | .answer u _ _ =>
    match s.asked? u with
    | some (q, _) => [if q.writes then .wrote u q.place else .listed u q.place]
    | none => []
  | _ => []

/-- The marks of a run. -/
def history (settings : Settings) (s : Outbound) (ms : List Move) : List Mark :=
  (machine settings).log marks s ms

end Outbound

end BorderSync
