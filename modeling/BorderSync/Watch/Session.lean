/-
# BorderSync.Watch.Session -- a watch on a cluster that answers as told

The cluster of a session answers with the nodes and services it is told to have. A list of services
may fail, and a watch may expire; both are reported, and after a pause the list starts over. Changes
go to the inbound queue of a pipeline, from which they are collected after every request.
-/
import BorderSync.Cluster.Node
import BorderSync.Cluster.Request
import BorderSync.Pipeline.Requests
import BorderSync.Probe.Basic
import BorderSync.Watch.Basic

namespace BorderSync

open Cluster

/-- **Watch session**: a pipeline that is fed by a watch, and what the cluster answers. -/
structure WatchSession where
  pipeline : Pipeline
  /-- The answer to a list of nodes. -/
  nodes : Except Error (List Node) := .ok []
  /-- Number of lists of services that will fail. -/
  failures : Nat := 0
  health : Probe.Health := {}
  running : Bool := false
  /-- What the cluster was asked since the last request to the session. -/
  asked : List Cluster.Request := []
  /-- Changes that came out of the inbound queue, with the failures counted for each. -/
  changes : List (Event.Change × Nat) := []

namespace WatchSession

/-- A session in which nothing has happened; a number of lists of services will fail. -/
def new (settings : Settings) (failures : Nat) : WatchSession :=
  { pipeline := .new settings {} .empty, failures := failures }

/-- Milliseconds before a list starts over. -/
def pause : Nat := 800

/-- Milliseconds that pass with every request. -/
def span : Nat := 120000

/-- The moment. -/
def now (s : WatchSession) : Nat := s.pipeline.clock.now

/-! ## Sights -/

/-- Note that the cluster is asked something. -/
def ask (s : WatchSession) (q : Cluster.Request) : WatchSession :=
  { s with asked := s.asked ++ [q] }

/-- Note reports. -/
def note (s : WatchSession) (rs : List Report) : WatchSession :=
  { s with pipeline := s.pipeline.note rs }

/-- Let time pass. -/
def pass (s : WatchSession) (millis : Nat) : WatchSession :=
  { s with pipeline := s.pipeline.serve (.advance millis) }

/-- Worker addresses as the cluster answers now. -/
def listing (s : WatchSession) : Watch.Listing :=
  s.nodes.map Node.workerAddresses

/-- Something is seen. -/
def see (s : WatchSession) (sight : Watch.Sight) : WatchSession :=
  let s := if Watch.needsNodes sight then s.ask .listNodes else s
  let o := Watch.observe s.pipeline.cache s.listing sight
  let p := { s.pipeline with cache := o.cache }.note o.reports
  { s with
    pipeline := match o.change with
      | none => p
      | some c => p.addChangeRateLimited c
    health := match sight with
      | .listEnds => s.health.markReady
      | _ => s.health }

/-- The report about a watch or list that failed. -/
def failureReport : Report :=
  .warn "❌ Service watcher error, backing off: .."

/-- List the services until that succeeds, and watch from there on. -/
def follow (services : List Service) (selector : Option String) : (failures : Nat) →
    WatchSession → WatchSession
  | 0, s =>
    let s := { s with failures := 0 }.ask (.listServices selector)
    ((Watch.ofList services).foldl see s).ask (.watchServices selector)
  | n + 1, s =>
    follow services selector n (((s.ask (.listServices selector)).note [failureReport]).pass pause)

/-- List the services that there are, and watch from there on. -/
def followAll (s : WatchSession) (services : List Service) : WatchSession :=
  follow services s.pipeline.settings.labelSelector s.failures s

/-! ## Requests -/

/-- What can be asked of a session. -/
inductive Request where
  | nodes (answer : Except Error (List Node))
  | start (services : List Service)
  | sight (seen : Watch.Sight)
  | expire (services : List Service)
  | advance (millis : Nat)
  | cancel

/-- The session right after a request. What happens without a watch is not seen. -/
def apply (s : WatchSession) : Request → WatchSession
  | .nodes answer => { s with nodes := answer }
  | .start services =>
    { s with running := true }.note [.info "🔍 Starting Service watcher"] |>.followAll services
  | .sight seen => if s.running then s.see seen else s
  | .expire services =>
    if s.running then ((s.note [failureReport]).pass pause).followAll services else s
  | .advance millis => s.pass millis
  | .cancel =>
    if s.running then { s with running := false }.note [.info "🔍 Service watcher shutting down"]
    else s

/-- Milliseconds until a request is over. -/
def Request.millis : Request → Nat
  | .nodes _ => 0
  | .advance n => n + span
  | _ => span

/-- Take all changes out of the inbound queue. -/
def collect (s : WatchSession) : WatchSession :=
  let queue := s.pipeline.inbound.queue
  { s with
    changes := queue.waiting.map fun c => (c, queue.requeues c)
    pipeline := s.pipeline.serve .takeInbound }

/-- **Serve a request**, let time pass and collect the changes. -/
def serve (s : WatchSession) (r : Request) : WatchSession :=
  let finish := s.now + r.millis
  let s := { s with asked := [], changes := [] }.apply r
  match r with
  | .nodes _ => s
  | _ => (s.pass (finish - s.now)).collect

end WatchSession

end BorderSync
