/-
# BorderSync.Cluster.Cache -- the last known state of every service

The cache remembers, for each key, the last service body and the worker addresses it was seen with.
It is what a deletion is made from: the live object is gone by then. An entry counts how often it
was overwritten since it was stored.
-/
import BorderSync.Cluster.Service
import BorderSync.Table

namespace BorderSync.Cluster

/-- What is remembered of one service. -/
structure Entry where
  service : Service
  nodes : List String
  version : Nat
  deriving DecidableEq, Repr

/-- **Cache**: one entry for every known key. -/
structure Cache where
  table : Table Key Entry := {}
  deriving Repr

namespace Cache

/-- The cache without entries. -/
def empty : Cache := {}

/-- The entry of a key. -/
def get? (c : Cache) (k : Key) : Option Entry :=
  c.table.get? k

/-- Whether a key has an entry. -/
def contains (c : Cache) (k : Key) : Bool :=
  (c.get? k).isSome

/-- Forget the entry of a key. -/
def erase (c : Cache) (k : Key) : Cache :=
  ⟨c.table.erase k⟩

/-- The entry that storing `service` makes, given the one that it replaces. -/
def renewed (old : Option Entry) (service : Service) (nodes : List String) : Entry :=
  ⟨service, nodes, match old with | none => 0 | some e => e.version + 1⟩

/-- Store a service body with the addresses it was seen with. -/
def put (c : Cache) (k : Key) (service : Service) (nodes : List String) : Cache :=
  ⟨c.table.insert k (renewed (c.get? k) service nodes)⟩

/-- Number of entries. -/
def size (c : Cache) : Nat :=
  c.table.size

/-! ## The view -/

@[simp] theorem get?_empty (k : Key) : empty.get? k = none :=
  rfl

/-- Forgetting a key leaves all others as they are. -/
theorem get?_erase (c : Cache) (j k : Key) :
    (c.erase j).get? k = if k = j then none else c.get? k := by
  have h := Table.get?_erase c.table j k
  simp only [beq_iff_eq] at h
  exact h

/-- What was stored is found under its key; all others are as they were. -/
theorem get?_put (c : Cache) (j k : Key) (s : Service) (nodes : List String) :
    (c.put j s nodes).get? k = if k = j then some (renewed (c.get? j) s nodes) else c.get? k := by
  have h := Table.get?_insert c.table j k (renewed (c.get? j) s nodes)
  simp only [beq_iff_eq] at h
  exact h

end Cache

end BorderSync.Cluster
