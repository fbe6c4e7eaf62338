/-
# BorderSync.Queue.Backoff -- how long to wait before the next attempt

Each item has a count of failures. The wait before the next attempt doubles with every failure,
from a base up to a maximum. Forgetting an item starts its count anew; other items are never
affected.
-/
import BorderSync.Duration
import BorderSync.Table

namespace BorderSync

/-- **Backoff**: bounds of the wait, and failures by item. -/
structure Backoff (α : Type) where
  base : Duration
  max : Duration
  failures : Table α Nat := {}

namespace Backoff

variable {α : Type} [BEq α]

/-- The largest count. -/
def ceiling : Nat := Nat.pow 2 32 - 1

/-- Number of failures since the item was last forgotten. -/
def count (b : Backoff α) (x : α) : Nat :=
  (b.failures.get? x).getD 0

/-- The wait after `n` earlier failures. -/
def delay (b : Backoff α) (n : Nat) : Duration :=
  match b.base.scale? (Nat.pow 2 (min n 31)) with
  | none => b.max
  | some d => d.least b.max

/-- Stop counting an item. -/
def forget (b : Backoff α) (x : α) : Backoff α :=
  { b with failures := b.failures.erase x }

/-- Count one more failure of an item. -/
def record (b : Backoff α) (x : α) : Backoff α :=
  { b with failures := b.failures.insert x (min ceiling (b.count x + 1)) }

/-- The wait before the next attempt at an item, if it fails now. -/
def wait (b : Backoff α) (x : α) : Duration :=
  b.delay (b.count x)

/-! ## Counts -/

/-- Forgetting an item leaves the counts of all others as they are. -/
theorem count_forget [EquivBEq α] (b : Backoff α) (x y : α) :
    (b.forget x).count y = if y == x then 0 else b.count y := by
  unfold count forget
  rw [Table.get?_erase]
  split <;> rfl

/-- One more failure of an item leaves the counts of all others as they are. -/
theorem count_record [EquivBEq α] (b : Backoff α) (x y : α) :
    (b.record x).count y = if y == x then min ceiling (b.count x + 1) else b.count y := by
  unfold count record
  rw [Table.get?_insert]
  split <;> rfl

end Backoff

end BorderSync
