/-
# BorderSync.Proofs.Plan -- what a plan is made from and what it uses up

The plan for a seen service comes from the body of the change and leaves the cache alone. The plan for
a deletion comes from the entry of the key alone, and takes that entry out.
-/
import BorderSync.Plan

namespace BorderSync

open Cluster Event

/-- What an entry says of a service: its body, and the addresses it was seen with. -/
def Cluster.Entry.sight (e : Entry) : Service × List String :=
  (e.service, e.nodes)

namespace Plan

/-- **Clean-up**: the updates that take away what a remembered service has put on border servers.
Without addresses there is nothing to take away. -/
def cleanup : Option (Service × List String) → List Update
  | none => []
  | some (body, nodes) => if nodes.isEmpty then [] else updatesOf .deleted body nodes

/-- What a port asks for is of the kind of the change. -/
theorem kind_of_updateOf? {kind : Kind} {s : Service} {nodes : List String} {p : Port} {u : Update}
    (h : updateOf? kind s nodes p = some u) : u.kind = kind := by
  unfold updateOf? at h
  split at h
  · split at h
    · exact congrArg Update.kind (Option.some.inj h).symm
    · exact absurd h (by simp)
  · exact absurd h (by simp)

/-- A deletion is planned for by key. -/
theorem ofChange_deleted (cache : Cache) {c : Change} {k : Key} (hc : c.kind = .deleted)
    (hk : Key.ofService? c.service = some k) : ofChange cache c = .ok (ofDeletion k cache) := by
  unfold ofChange
  rw [hk, hc]

/-- Any other change is planned for from its body. -/
theorem ofChange_body (cache : Cache) {c : Change} {k : Key} (hc : c.kind ≠ .deleted)
    (hk : Key.ofService? c.service = some k) :
    ofChange cache c = .ok (ofBody c.kind c.service c.nodes cache) := by
  unfold ofChange
  rw [hk]
  cases h : c.kind with
  | created => rfl
  | updated => rfl
  | deleted => exact absurd h hc

/-- A plan for anything but a deletion has the updates of the body. -/
theorem updates_of_body {cache : Cache} {c : Change} {p : Plan} (hkind : c.kind ≠ .deleted)
    (hplan : ofChange cache c = .ok p) : p.updates = updatesOf c.kind c.service c.nodes := by
  cases hk : Key.ofService? c.service with
  | none =>
    unfold ofChange at hplan
    rw [hk] at hplan
    exact absurd hplan (by simp)
  | some k =>
    rw [ofChange_body cache hkind hk] at hplan
    exact congrArg Plan.updates (Except.ok.inj hplan).symm

/-- The plan for a deletion is made from the entry of the key. -/
theorem updates_ofDeletion (k : Key) (cache : Cache) :
    (ofDeletion k cache).updates = cleanup ((cache.get? k).map Entry.sight) := by
  unfold ofDeletion
  cases cache.get? k with
  | none => rfl
  | some e =>
    simp only [Option.map_some, cleanup, Entry.sight]
    split <;> rfl

/-- The plan for a deletion uses up the entry of the key and no other. -/
theorem get?_ofDeletion (k : Key) (cache : Cache) (j : Key) :
    (ofDeletion k cache).cache.get? j = if j = k then none else cache.get? j := by
  unfold ofDeletion
  cases h : cache.get? k with
  | none =>
    show cache.get? j = _
    split
    · rename_i hj
      rw [hj, h]
    · rfl
  | some e =>
    simp only
    split <;> exact cache.get?_erase k j

end Plan

end BorderSync
