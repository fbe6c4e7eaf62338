/-
# BorderSync.Proofs.Queue.Backoff -- what failures are counted, and what wait they earn

The wait after a number of failures has a closed form. Counts are changed by a failure and by forgetting,
and by nothing else that is done to a queue; the bounds of the wait never change.
-/
import BorderSync.Proofs.Queue.Moves

namespace BorderSync

namespace Backoff

variable {α : Type}

/-- **Pause**: the wait after `n` earlier failures, from a base that doubles up to a maximum. -/
def pause (base max : Duration) (n : Nat) : Duration :=
  ⟨min max.nanos (base.nanos * Nat.pow 2 (min n 31))⟩

/-- The wait is the pause between its bounds; a product that is too long for a span is longer than every
maximum. -/
theorem delay_eq_pause {b : Backoff α} (hmax : b.max.nanos ≤ Duration.longest.nanos) (n : Nat) :
    b.delay n = pause b.base b.max n := by
  unfold delay pause
  generalize Nat.pow 2 (min n 31) = k
  by_cases hfits : b.base.nanos * k ≤ Duration.longest.nanos
  · have hscale : b.base.scale? k = some ⟨b.base.nanos * k⟩ := if_pos hfits
    rw [hscale]
    exact congrArg Duration.mk (Nat.min_comm _ _)
  · have hscale : b.base.scale? k = none := if_neg hfits
    rw [hscale, Nat.min_eq_left (Nat.le_trans hmax (Nat.le_of_not_le hfits))]

end Backoff

namespace WorkQueue

variable {α : Type} [BEq α]

@[simp] theorem backoff_push (q : WorkQueue α) (x : α) : (q.push x).backoff = q.backoff := by
  unfold push
  split <;> rfl

@[simp] theorem backoff_add (q : WorkQueue α) (x : α) : (q.add x).backoff = q.backoff := by
  unfold add
  split <;> simp

@[simp] theorem backoff_addAfter (q : WorkQueue α) (x : α) (d : Duration) :
    (q.addAfter x d).backoff = q.backoff := by
  unfold addAfter
  split <;> simp [announce]

@[simp] theorem backoff_land (q : WorkQueue α) (x : α) : (q.land x).backoff = q.backoff := by
  simp [land]

@[simp] theorem backoff_take (q : WorkQueue α) : q.take.backoff = q.backoff := by
  unfold take
  split <;> rfl

/-- Nothing that is done to a queue changes the bounds of the wait. -/
theorem backoff_next (s : Floor α) (m : Move α) :
    (s.next m).queue.backoff.base = s.queue.backoff.base ∧
      (s.next m).queue.backoff.max = s.queue.backoff.max := by
  cases m <;>
    simp [Floor.next, Floor.addAfter, Floor.take, recordFailure, forget, done, shutDown, Backoff.record,
      Backoff.forget]

end WorkQueue

end BorderSync
