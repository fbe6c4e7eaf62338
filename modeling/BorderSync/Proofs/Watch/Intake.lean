/-
# BorderSync.Proofs.Watch.Intake -- the watcher, the inbound queue and those who plan

The watcher stores what it sees in the cache and hands a change to the inbound queue; consumers take
changes from the queue, plan for them and are done with them. The cache is shared: the watcher writes
to it at the moment of a sight, a plan for a deletion takes an entry out when the change has come
through the queue. This module tells both sides as one machine. A move is what one task does while no
other can come in between, so a change is first made, then its wait is determined, then it is put in.

Equal changes may stand for one another: the moves that land, plan for and are done with a change may
name any equal one, so that nothing depends on which of several equal bodies a queue has kept.
-/
import BorderSync.Proofs.Plan
import BorderSync.Proofs.Queue.Load
import BorderSync.Watch.Basic

namespace BorderSync

open Cluster Event

/-- The namespace contains no slash. A cluster has no others. -/
def Cluster.Key.isPlain (k : Key) : Bool :=
  !k.space.toList.contains '/'

/-- The namespace of a service contains no slash. -/
def Cluster.Service.hasPlainSpace (s : Service) : Bool :=
  !s.space.toList.contains '/'

/-- **Outbox**: the change that the watcher has in hand. -/
inductive Outbox where
  | empty
  /-- The change is made; how long it waits is not determined. -/
  | made (c : Change)
  | rated (c : Change) (wait : Duration)

namespace Outbox

/-- The change in an outbox. -/
def change? : Outbox → Option Change
  | .empty => none
  | .made c => some c
  | .rated c _ => some c

/-- The outbox that a sight leads to. -/
def of? : Option Change → Outbox
  | none => .empty
  | some c => .made c

@[simp] theorem change?_of? (c : Option Change) : (of? c).change? = c := by
  cases c <;> rfl

end Outbox

/-- **Intake**: the cache, and the way of a change from the watcher to those who plan. -/
structure Intake where
  cache : Cache := .empty
  outbox : Outbox := .empty
  inbound : WorkQueue.Floor Change
  /-- Changes that were handed out and have not been planned for. -/
  unplanned : List Change := []

namespace Intake

/-- **Move** of the watcher, of a timer or of a consumer. -/
inductive Move where
  /-- The watcher sees something, and lists the nodes if it needs them. -/
  | see (sight : Watch.Sight) (nodes : List String)
  /-- The watcher determines how long its change waits. -/
  | rate
  /-- The watcher puts its change into the queue. -/
  | post
  | land (c : Change)
  /-- A consumer looks for a change. -/
  | take
  | plan (c : Change)
  | forget (c : Change)
  | done (c : Change)
  deriving Repr

/-- Nothing was seen yet. -/
def start (name : String) (base max : Duration) : Intake :=
  { inbound := .start name base max }

/-- What a change leads to in the cache, and the updates that it asks for. -/
def planFor (s : Intake) (c : Change) : Plan :=
  match Plan.ofChange s.cache c with
  | .ok r => r
  | .error _ => ⟨[], s.cache, []⟩

/-- The watcher sees something. -/
def see (s : Intake) (sight : Watch.Sight) (nodes : List String) : Intake :=
  let o := Watch.observe s.cache (.ok nodes) sight
  { s with cache := o.cache, outbox := .of? o.change }

/-- The watcher determines how long its change waits. -/
def rate (s : Intake) : Intake :=
  match s.outbox with
  | .made c =>
    { s with
      inbound := s.inbound.next (.recordFailure c)
      outbox := .rated c (s.inbound.queue.backoff.wait c) }
  | _ => s

/-- The watcher puts its change into the queue. -/
def post (s : Intake) : Intake :=
  match s.outbox with
  | .rated c wait => { s with inbound := s.inbound.addAfter c wait, outbox := .empty }
  | _ => s

/-- A consumer looks for a change. -/
def take (s : Intake) : Intake :=
  { s with
    inbound := s.inbound.take
    unplanned := match s.inbound.queue.hand with
      | .item c => s.unplanned ++ [c]
      | _ => s.unplanned }

/-- A consumer plans for a change. -/
def plan (s : Intake) (c : Change) : Intake :=
  { s with cache := (s.planFor c).cache, unplanned := s.unplanned.eraseP (· == c) }

/-- The intake after a move. -/
def next (s : Intake) : Move → Intake
  | .see sight nodes => s.see sight nodes
  | .rate => s.rate
  | .post => s.post
  | .land c => { s with inbound := s.inbound.next (.land c) }
  | .take => s.take
  | .plan c => s.plan c
  | .forget c => { s with inbound := s.inbound.next (.forget c) }
  | .done c => { s with inbound := s.inbound.next (.done c) }

/-- The service that is seen. -/
def seen? : Watch.Sight → Option Service
  | .listed b => some b
  | .applied b => some b
  | .deleted b => some b
  | _ => none

/-- The watcher finishes with one sight before the next. A consumer plans for what it has in hand, once,
and then is done with it. -/
def allows (s : Intake) : Move → Bool
  | .see sight _ => s.outbox.change?.isNone && (seen? sight).all Service.hasPlainSpace
  | .rate =>
    match s.outbox with
    | .made _ => true
    | _ => false
  | .post =>
    match s.outbox with
    | .rated _ _ => true
    | _ => false
  | .land c => s.inbound.coming.contains c
  | .take => true
  | .plan c => s.unplanned.contains c && c.service.name.isSome && c.service.hasPlainSpace
  | .forget _ => true
  | .done c => s.inbound.hands.contains c && !s.unplanned.contains c

/-- **The machine of an intake**: its legal runs are all interleavings of watcher, timers and consumers. -/
def machine : Machine Intake Move :=
  ⟨allows, next⟩

/-- The watcher has nothing in hand, and the queue is idle. -/
def isIdle (s : Intake) : Bool :=
  s.outbox.change?.isNone && s.inbound.queue.isIdle

/-! ## Deletions that are under way -/

/-- The change tells that the service of a key is gone. Equal changes have equal labels, and a label says
which of the plain keys is meant. -/
def deletes (k : Key) (c : Change) : Bool :=
  k.isPlain && c.kind = .deleted && c.label == k.text

/-- Number of deletions of a key that the watcher has seen and nobody has planned for. -/
def pending (k : Key) (s : Intake) : Nat :=
  s.outbox.change?.toList.countP (deletes k) + s.inbound.load (deletes k)
    + s.unplanned.countP (deletes k)

/-- What the cache says of a key. -/
def view (s : Intake) (k : Key) : Option (Service × List String) :=
  (s.cache.get? k).map Entry.sight

/-! ## Marks -/

/-- **Mark** of a move. -/
inductive Mark where
  /-- A service is seen, with these worker addresses; the last part says whether a deletion of the
  same key is under way at that moment. -/
  | applied (k : Key) (body : Service) (nodes : List String) (chased : Bool)
  /-- A service is seen to be gone. -/
  | deleted (k : Key)
  /-- A consumer plans for a deletion: what it finds in the cache, and the updates it asks for. -/
  | planned (k : Key) (found : Option (Service × List String)) (updates : List Update)
  deriving DecidableEq, Repr

/-- Marks of a service that is seen. -/
def applyMarks (s : Intake) (body : Service) (nodes : List String) : List Mark :=
  match Key.ofService? body with
  | none => []
  | some k => [.applied k body nodes (decide (0 < s.pending k))]

/-- Marks of a service that is gone. -/
def deleteMarks (body : Service) : List Mark :=
  match Key.ofService? body with
  | none => []
  | some k => [.deleted k]

/-- Marks of a plan. -/
def planMarks (s : Intake) (c : Change) : List Mark :=
  match c.kind, Key.ofService? c.service with
  | .deleted, some k => [.planned k (s.view k) (s.planFor c).updates]
  | _, _ => []

/-- **The marks of a move.** -/
def marks (s : Intake) : Move → List Mark
  | .see (.listed body) nodes => s.applyMarks body nodes
  | .see (.applied body) nodes => s.applyMarks body nodes
  | .see (.deleted body) _ => deleteMarks body
  | .plan c => s.planMarks c
  | _ => []

/-- The marks of a run. -/
def history (s : Intake) (ms : List Move) : List Mark :=
  machine.log marks s ms

end Intake

end BorderSync
