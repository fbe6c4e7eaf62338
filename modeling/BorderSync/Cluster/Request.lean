/-
# BorderSync.Cluster.Request -- what the cluster is asked

Services of all namespaces are listed and watched, restricted by a label selector if there is one.
Nodes are listed whenever a service is seen.
-/
import BorderSync.Text.Percent

namespace BorderSync.Cluster

/-- **Request** to the cluster. -/
inductive Request where
  | listServices (selector : Option String)
  | watchServices (selector : Option String)
  | listNodes
  deriving DecidableEq, Repr

namespace Request

/-- The label selector as it is sent. -/
def selectorText : Option String → String
  | none => ""
  | some s => " labelSelector=" ++ String.ofList (Text.Percent.encodeForm s.toList)

/-- A request in one line. -/
def text : Request → String
  | .listServices selector => "LIST /api/v1/services" ++ selectorText selector
  | .watchServices selector => "WATCH /api/v1/services" ++ selectorText selector
  | .listNodes => "LIST /api/v1/nodes"

end Request

end BorderSync.Cluster
