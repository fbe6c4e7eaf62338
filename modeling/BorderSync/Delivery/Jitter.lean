/-
# BorderSync.Delivery.Jitter -- spreading writes over time

Every write to a border server waits for a number of milliseconds drawn between two bounds, so that
the servers are not all called at once.
-/

namespace BorderSync.Delivery.Jitter

/-- The upper bound in force: it is never below the lower one. -/
def upper (min max : Nat) : Nat := Nat.max max min

/-- **A draw**: `r` picks one of the numbers from `min` to the upper bound, ends included. -/
def draw (min max r : Nat) : Nat :=
  min + r % (upper min max - min + 1)

/-- Draws are never below the lower bound. -/
theorem min_le_draw (min max r : Nat) : min ≤ draw min max r :=
  Nat.le_add_right _ _

/-- Draws are never above the upper bound. -/
theorem draw_le_upper (min max r : Nat) : draw min max r ≤ upper min max := by
  have h : r % (upper min max - min + 1) < upper min max - min + 1 := Nat.mod_lt _ (by omega)
  have : min ≤ upper min max := Nat.le_max_right _ _
  unfold draw
  omega

end BorderSync.Delivery.Jitter
