/-
# BorderSync.Cluster.Node -- which nodes of the cluster may receive traffic

Traffic goes to the internal addresses of the nodes that work: members of the control plane and
nodes closed for scheduling never receive any.
-/

namespace BorderSync.Cluster

/-- One address of a node, with the kind of address it is. -/
structure NodeAddress where
  kind : String
  address : String
  deriving DecidableEq, Repr

/-- A node object. -/
structure Node where
  labels : List String := []
  unschedulable : Bool := false
  addresses : List NodeAddress := []
  deriving DecidableEq, Repr

namespace Node

/-- Labels that mark members of the control plane. -/
def controlPlaneLabels : List String :=
  ["node-role.kubernetes.io/control-plane", "node-role.kubernetes.io/master"]

/-- The node is a member of the control plane. -/
def isControlPlane (n : Node) : Bool :=
  controlPlaneLabels.any n.labels.contains

/-- The node may receive traffic. -/
def isWorker (n : Node) : Bool :=
  !n.isControlPlane && !n.unschedulable

/-- The internal addresses of one node, in its own order. -/
def internalAddresses (n : Node) : List String :=
  (n.addresses.filter fun a => a.kind == "InternalIP").map NodeAddress.address

/-- **Worker addresses**: the internal addresses of all worker nodes, in list order. -/
def workerAddresses (nodes : List Node) : List String :=
  (nodes.filter isWorker).flatMap internalAddresses

end Node

end BorderSync.Cluster
