/-
# BorderSync.Cluster.Service -- the parts of a cluster service that matter here

A service announces ports, some of which are to be balanced by a border server. Only the parts of
the object that the rest of the library reads are kept. A service is known by its namespace and
name; an object without a name cannot be tracked at all.
-/

namespace BorderSync.Cluster

/-- One port of a service. -/
structure Port where
  name : Option String
  nodePort : Option Int
  deriving DecidableEq, Repr

/-- A service object. -/
structure Service where
  name : Option String := none
  namespaceName : Option String := none
  generateName : Option String := none
  version : Option String := none
  annotations : List (String × String) := []
  ports : List Port := []
  deriving DecidableEq, Repr

namespace Service

/-- The namespace, empty when none is given. -/
def space (s : Service) : String :=
  s.namespaceName.getD ""

/-- The best name to show: the name, else the stem for generated names, else nothing. -/
def anyName (s : Service) : String :=
  (s.name <|> s.generateName).getD ""

/-- Namespace and shown name with a slash between. -/
def label (s : Service) : String :=
  s.space ++ "/" ++ s.anyName

end Service

/-- **Key** of a service: namespace and name. -/
structure Key where
  space : String
  name : String
  deriving DecidableEq, Repr

namespace Key

/-- The key of a service, if it has a name. -/
def ofService? (s : Service) : Option Key :=
  s.name.map fun n => ⟨s.space, n⟩

/-- The key as text. -/
def text (k : Key) : String :=
  k.space ++ "/" ++ k.name

/-- Keys are ordered by namespace, then by name. -/
def le (a b : Key) : Bool :=
  decide (a.space < b.space) || (a.space == b.space && decide (a.name ≤ b.name))

/-- The different keys of a list in ascending order. -/
def sorted (ks : List Key) : List Key :=
  ks.eraseDups.mergeSort le

end Key

end BorderSync.Cluster
