/-
# BorderSync.Watch.Basic -- from what the watch sees to changes of services

A watch on the services of a cluster first lists them and then reports one event after another.
Every service that is seen is stored in the cache together with the worker addresses of that moment,
and leads to one change. A deletion leads to a change as well but leaves the cache as it is: the
stored state is needed until the deletion is carried out.

Worker addresses come from a list of nodes that may fail. Then the addresses that were stored last
stand in; with none stored the service is left alone, since a change without addresses would take
away all of its servers.
-/
import BorderSync.Cluster.Cache
import BorderSync.Error
import BorderSync.Event.Change
import BorderSync.Log

namespace BorderSync.Watch

open Cluster Event

/-- What the watch reports. -/
inductive Sight where
  /-- A list of all services is about to come. -/
  | listBegins
  /-- A service in a list. -/
  | listed (s : Service)
  /-- The list is complete. -/
  | listEnds
  /-- A service is new or was changed. -/
  | applied (s : Service)
  /-- A service is gone. -/
  | deleted (s : Service)
  deriving Repr

/-- The worker addresses, or why they could not be listed. -/
abbrev Listing := Except Error (List String)

/-- What a sight leads to: the cache afterwards, a change to hand on, and reports. -/
structure Outcome where
  cache : Cache
  change : Option Change := none
  reports : List Report := []

/-! ## Services that are seen -/

/-- The addresses to store: those listed, else those stored last. -/
def addresses? (cache : Cache) (k : Key) : Listing → Option (List String)
  | .ok nodes => some nodes
  | .error _ => (cache.get? k).map Entry.nodes

/-- What is said about a list of nodes that failed. -/
def listingReports (cache : Cache) (k : Key) : Listing → List Report
  | .ok _ => []
  | .error e =>
    if cache.contains k then
      [.warn ("Watcher: failed to list nodes for " ++ k.text ++ " (" ++ e.message
        ++ "), reusing last known addresses")]
    else [.error ("❌ Watcher: failed to list nodes for " ++ k.text ++ ", skipping: " ++ e.message)]

/-- Store a service and make the change that tells of it: an update if something was stored. -/
def store (cache : Cache) (k : Key) (s : Service) (nodes : List String) : Cache × Change :=
  let old := cache.get? k
  (cache.put k s nodes,
   .of (if old.isSome then .updated else .created) s (old.map Entry.service) nodes)

/-- **A service is seen.** -/
def apply (cache : Cache) (s : Service) (listing : Listing) : Outcome :=
  match Key.ofService? s with
  | none => { cache := cache, reports := [.warn "Watcher: ignoring Service without a name"] }
  | some k =>
    let reports := listingReports cache k listing
    match addresses? cache k listing with
    | none => { cache := cache, reports := reports }
    | some nodes =>
      let (cache, change) := store cache k s nodes
      { cache := cache, change := some change, reports := reports }

/-! ## Services that are gone -/

/-- **A service is gone.** -/
def delete (cache : Cache) (s : Service) : Outcome :=
  match Key.ofService? s with
  | none => { cache := cache, reports := [.warn "Watcher: ignoring deleted Service without a name"] }
  | some _ =>
    { cache := cache
      change := some (.of .deleted s none [])
      reports := [.info ("🗑️  Service deleted: " ++ s.label)] }

/-! ## All sights -/

/-- The sight needs a list of nodes: a service with a name is seen. -/
def needsNodes : Sight → Bool
  | .listed s => s.name.isSome
  | .applied s => s.name.isSome
  | _ => false

/-- **What a sight leads to.** -/
def observe (cache : Cache) (listing : Listing) : Sight → Outcome
  | .listBegins => { cache := cache }
  | .listed s => apply cache s listing
  | .listEnds => { cache := cache, reports := [.info "🔍 Service watcher initial list complete"] }
  | .applied s => apply cache s listing
  | .deleted s => delete cache s

/-- The sights of a complete list. -/
def ofList (services : List Service) : List Sight :=
  .listBegins :: services.map .listed ++ [.listEnds]

end BorderSync.Watch
