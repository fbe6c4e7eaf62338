/-
# BorderSync.Plan -- the updates of upstreams that a changed service asks for

A port takes part in load balancing when its name begins with a marker; the rest of the name is the
upstream. Each such port with a node port yields one update, whose servers are the worker addresses
with that node port. The kind of client that manages the port comes from an annotation. A deletion
is planned from the cache, never from the body of the change.
-/
import BorderSync.Cluster.Cache
import BorderSync.Error
import BorderSync.Event.Update
import BorderSync.Log
import BorderSync.Text.Blank

namespace BorderSync

open Cluster Event

/-- **Plan**: the updates to make, the cache afterwards and reports. -/
structure Plan where
  updates : List Update
  cache : Cache
  reports : List Report
  deriving Repr

namespace Plan

/-- The marker that a port name begins with. -/
def portMarker : String := "nlk-"

/-- The namespace of the annotations that choose a client type. -/
def annotationSpace : String := "nginxinc.io"

/-- The client type of ports without annotation. -/
def defaultClientType : String := "http"

/-- What follows the marker in a port name. -/
def afterMarker? (portName : String) : Option String :=
  (Text.stripLead? portMarker.toList portName.toList).map String.ofList

/-- The port name has the marker and something after it. -/
def isMarked (portName : String) : Bool :=
  match afterMarker? portName with
  | none => false
  | some rest => rest != ""

/-- The port takes part in load balancing. -/
def isMarkedPort (p : Port) : Bool :=
  (p.name.map isMarked).getD false

/-- The upstream that a port name stands for. -/
def upstreamOf (portName : String) : String :=
  (afterMarker? portName).getD portName

/-- The annotation that chooses the client type of a port. -/
def annotationKey (portName : String) : String :=
  annotationSpace ++ "/" ++ portName

/-- The client type of a port. -/
def clientTypeOf (portName : String) (annotations : List (String × String)) : String :=
  match annotations.lookup (annotationKey portName) with
  | none => defaultClientType
  | some value => Text.lower (Text.trim value)

/-- A worker address with a node port. -/
def serverText (address : String) (nodePort : Int) : String :=
  address ++ ":" ++ toString nodePort

/-- The update that one port asks for. -/
def updateOf? (kind : Kind) (s : Service) (nodes : List String) (p : Port) : Option Update :=
  match p.name, p.nodePort with
  | some name, some nodePort =>
    if isMarked name then
      some {
        kind := kind
        upstream := upstreamOf name
        clientType := clientTypeOf name s.annotations
        servers := nodes.map fun a => serverText a nodePort }
    else none
  | _, _ => none

/-- **The updates that a service body asks for**, in port order. -/
def updatesOf (kind : Kind) (s : Service) (nodes : List String) : List Update :=
  s.ports.filterMap (updateOf? kind s nodes)

/-- The warning about a port of interest without a node port. -/
def portReport? (s : Service) (p : Port) : Option Report :=
  match p.name, p.nodePort with
  | some name, none =>
    if isMarked name then
      some (.warn ("Translator: port '" ++ name ++ "' on service " ++ Text.quoteOption s.name
        ++ " has no nodePort, skipping"))
    else none
  | _, _ => none

/-- The warnings about a service body. -/
def portReports (s : Service) : List Report :=
  s.ports.filterMap (portReport? s)

/-- The plan for a service body. -/
def ofBody (kind : Kind) (s : Service) (nodes : List String) (cache : Cache) : Plan :=
  ⟨updatesOf kind s nodes, cache, portReports s⟩

/-- The plan for a deletion: the entry of the key is used up. -/
def ofDeletion (key : Key) (cache : Cache) : Plan :=
  match cache.get? key with
  | none =>
    ⟨[], cache, [.warn ("Translator::translate: no cached state for deleted service " ++ key.text
      ++ ", upstreams are left as they are")]⟩
  | some entry =>
    if entry.nodes.isEmpty then
      ⟨[], cache.erase key, [.warn ("Translator::translate: no cached node addresses for deleted service "
        ++ key.text ++ ", nothing to remove")]⟩
    else ofBody .deleted entry.service entry.nodes (cache.erase key)

/-- **The plan for a change.** Only a service without a name has none. -/
def ofChange (cache : Cache) (c : Change) : Except Error Plan :=
  match Key.ofService? c.service with
  | none => .error .namelessService
  | some key =>
    match c.kind with
    | .deleted => .ok (ofDeletion key cache)
    | kind => .ok (ofBody kind c.service c.nodes cache)

end Plan

end BorderSync
