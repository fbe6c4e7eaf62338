/-
# BorderSync.Pipeline.Requests -- what can be asked of a pipeline from outside
-/
import BorderSync.Pipeline.Turns

namespace BorderSync.Pipeline

open Event

/-- What can be asked of a pipeline. -/
inductive Request where
  | start (side : Side)
  | cancel (side : Side)
  | shutDown (side : Side)
  | fanOut (us : List Update)
  | schedule (u : Update)
  | retry (u : Update)
  | rateLimited (c : Change)
  | enqueue (c : Change)
  | put (key : Cluster.Key) (s : Cluster.Service) (nodes : List String)
  | takeOutbound
  | takeInbound
  | advance (millis : Nat)

/-- Tell a side to stop; its runs hear of it. -/
def cancel (p : Pipeline) (side : Side) : Pipeline :=
  let p := match side with
    | .inbound => { p with inboundCancelled := true }
    | .outbound => { p with outboundCancelled := true }
  p.wakeAll <| p.tasks.filterMap fun e =>
    match e.2 with
    | .run s .running => if s = side then some e.1 else none
    | _ => none

/-- Take an item and be done with it, as often as items are waiting at the moment. -/
def takeAll {α : Type} [BEq α] : (n : Nat) → SharedQueue α → SharedQueue α × List TaskId × List α
  | 0, s => (s, [], [])
  | n + 1, s =>
    match s.queue.waiting with
    | [] => (s, [], [])
    | x :: _ =>
      let (s, woken) := s.become s.queue.take s.queue.takeCalls
      let (s, more) := s.done x
      let (s, rest, xs) := takeAll n s
      (s, woken ++ more ++ rest, x :: xs)

/-- The pipeline right after a request, before tasks have run. -/
def apply (p : Pipeline) : Request → Pipeline
  | .start side => p.spawn (.run side .starting)
  | .cancel side => p.cancel side
  | .shutDown side => p.spawn (.shutDown side {})
  | .fanOut us => p.fanOut us
  | .schedule u => p.schedule u
  | .retry u => p.addUpdateRateLimited u
  | .rateLimited c => p.addChangeRateLimited c
  | .enqueue c => p.withInbound (p.inbound.add c)
  | .put key s nodes => { p with cache := p.cache.put key s nodes }
  | .takeOutbound =>
    let (s, woken, _) := takeAll turnBound p.outbound
    p.withOutbound (s, woken)
  | .takeInbound =>
    let (s, woken, _) := takeAll turnBound p.inbound
    p.withInbound (s, woken)
  | .advance millis => Tasks.runUntil turnBound turnBound (p.clock.now + millis) p

/-- **Serve a request** and let all tasks run that can. -/
def serve (p : Pipeline) (r : Request) : Pipeline :=
  Tasks.settle turnBound ({ p with drained := [] }.apply r)

/-- The sides of the runs that have not ended, in the order in which they were started. -/
def running (p : Pipeline) : List Side :=
  p.tasks.filterMap fun e =>
    match e.2 with
    | .run side _ => some side
    | _ => none

/-- The requests that border servers saw, by place. -/
def requestsByPlace (p : Pipeline) : List (String × List (Nat × Border.Request)) :=
  (p.requests.map Prod.fst).eraseDups.map fun place =>
    (place, (p.requests.filter fun r => r.1 == place).map Prod.snd)

end BorderSync.Pipeline
