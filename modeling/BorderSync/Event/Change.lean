/-
# BorderSync.Event.Change -- a change of one service, as the watch saw it

A change carries the service body, the worker addresses at that moment and, for an update only, the
body that it replaced. Two changes are the same work when kind, key, version and addresses agree;
bodies and replaced bodies play no part in that.
-/
import BorderSync.Cluster.Service

namespace BorderSync.Event

/-- The kind of a change. -/
inductive Kind where
  | created
  | updated
  | deleted
  deriving DecidableEq, Repr

/-- The name of a kind. -/
def Kind.text : Kind → String
  | .created => "Created"
  | .updated => "Updated"
  | .deleted => "Deleted"

/-- **Change** of one service. -/
structure Change where
  kind : Kind
  service : Cluster.Service
  previous : Option Cluster.Service
  nodes : List String
  deriving Repr

namespace Change

/-- A change; the replaced body is kept for updates only. -/
def of (kind : Kind) (service : Cluster.Service) (previous : Option Cluster.Service)
    (nodes : List String) : Change :=
  ⟨kind, service, if kind = .updated then previous else none, nodes⟩

/-- Namespace and name of the service concerned. -/
def label (c : Change) : String :=
  c.service.label

/-- What makes two changes the same work. -/
structure Identity where
  kind : Kind
  label : String
  version : Option String
  nodes : List String
  deriving DecidableEq, Repr

/-- The identity of a change. -/
def identity (c : Change) : Identity :=
  ⟨c.kind, c.label, c.service.version, c.nodes⟩

instance : BEq Change :=
  ⟨fun a b => decide (a.identity = b.identity)⟩

/-- Changes are equal work exactly when their identities agree. -/
theorem beq_iff {a b : Change} : (a == b) = true ↔ a.identity = b.identity := by
  change decide (a.identity = b.identity) = true ↔ _
  exact decide_eq_true_iff

instance : EquivBEq Change where
  rfl := beq_iff.mpr rfl
  symm h := beq_iff.mpr (beq_iff.mp h).symm
  trans h₁ h₂ := beq_iff.mpr ((beq_iff.mp h₁).trans (beq_iff.mp h₂))

end Change

end BorderSync.Event
