/-
# BorderSync.Proofs.Queue.Calls -- who is told about what has changed

Whoever waits on a queue waits for one of three things: that an item is there, that none will come any
more, or that the queue is idle. Each of these comes about by a move, and the move calls those who wait
for it. What a move calls is read off the queue before the move.
-/
import BorderSync.Proofs.Queue.Moves

namespace BorderSync.WorkQueue

variable {α : Type} [BEq α]

/-- Whom an add after a delay calls at once. -/
def addAfterCalls (q : WorkQueue α) (x : α) (d : Duration) : List Call :=
  match q.admission d with
  | .now => q.addCalls x
  | _ => []

/-- Whom a move calls after it has let go of the queue. -/
def callsOf (q : WorkQueue α) : Move α → List Call
  | .add x => q.addCalls x
  | .addAfter x d => q.addAfterCalls x d
  | .addRateLimited x => q.addAfterCalls x (q.backoff.wait x)
  | .recordFailure _ => []
  | .forget _ => []
  | .land x => q.landCalls x
  | .take => q.takeCalls
  | .done x => q.doneCalls x
  | .shutDown => [.allConsumers]

/-! ## An item waits -/

theorem addCalls_of_waiting {q : WorkQueue α} {x : α} (h : (q.add x).waiting ≠ []) :
    q.waiting ≠ [] ∨ .oneConsumer ∈ q.addCalls x := by
  unfold add at h
  unfold addCalls
  cases hclosed : q.closed with
  | true =>
    rw [if_pos hclosed] at h
    exact .inl h
  | false =>
    rw [if_neg (by simp [hclosed]), waiting_push] at h
    cases henters : q.enters x with
    | true => exact .inr (by simp)
    | false => exact .inl (by simpa [henters] using h)

theorem addAfterCalls_of_waiting {q : WorkQueue α} {x : α} {d : Duration}
    (h : (q.addAfter x d).waiting ≠ []) : q.waiting ≠ [] ∨ .oneConsumer ∈ q.addAfterCalls x d := by
  unfold addAfter at h
  unfold addAfterCalls
  cases hd : q.admission d with
  | now => exact addCalls_of_waiting (by simpa [hd] using h)
  | later => exact .inl (by simpa [hd, announce] using h)
  | refused => exact .inl (by simpa [hd] using h)

/-- **When something waits that did not wait before, a consumer is called.** -/
theorem called_of_waiting (s : Floor α) (m : Move α) (h : (s.next m).queue.waiting ≠ []) :
    s.queue.waiting ≠ [] ∨ .oneConsumer ∈ s.queue.callsOf m := by
  cases m with
  | add x => exact addCalls_of_waiting h
  | addAfter x d => exact addAfterCalls_of_waiting h
  | addRateLimited x => exact addAfterCalls_of_waiting (q := s.queue.recordFailure x) h
  | recordFailure x => exact .inl h
  | forget x => exact .inl h
  | shutDown => exact .inl h
  | land x =>
    have henters : ({ s.queue with delayed := s.queue.delayed - 1 } : WorkQueue α).enters x
        = s.queue.enters x := rfl
    replace h : (s.queue.land x).waiting ≠ [] := h
    rw [land, waiting_push, henters] at h
    cases hx : s.queue.enters x with
    | true => exact .inr (by simp [callsOf, landCalls, hx])
    | false => exact .inl (by simpa [hx] using h)
  | take =>
    refine .inl fun hw => h ?_
    show s.queue.take.waiting = []
    rw [WorkQueue.take_of_empty hw, hw]
  | done x =>
    cases hx : s.queue.dirty.contains x with
    | true => exact .inr (by simp [callsOf, doneCalls, hx])
    | false =>
      replace h : (s.queue.done x).waiting ≠ [] := h
      exact .inl (by simpa [WorkQueue.done, hx] using h)

/-- A hand-out that leaves something calls the next consumer. -/
theorem called_of_take {q : WorkQueue α} (h : q.take.waiting ≠ []) : .oneConsumer ∈ q.takeCalls := by
  unfold takeCalls
  match hw : q.waiting with
  | [] =>
    rw [take_of_empty hw] at h
    exact absurd hw h
  | [x] => exact absurd (waiting_take hw) h
  | _ :: _ :: _ => simp

/-! ## No item will come -/

omit [BEq α] in
/-- No item will come any more. -/
def Spent (q : WorkQueue α) : Prop :=
  q.closed = true ∧ q.delayed = 0

omit [BEq α] in
theorem spent_of_hand {q : WorkQueue α} (h : q.hand = .notYet) : q.waiting = [] ∧ ¬q.Spent := by
  cases hw : q.waiting with
  | cons x rest =>
    rw [(q.hand_eq_item_iff x).mpr ⟨rest, hw⟩] at h
    exact absurd h (by simp)
  | nil =>
    refine ⟨rfl, fun ⟨hclosed, hdelayed⟩ => ?_⟩
    rw [hand_of_empty hw, hclosed, hdelayed] at h
    exact absurd h (by simp)

theorem spent_of_addAfter {q : WorkQueue α} {x : α} {d : Duration} (h : (q.addAfter x d).Spent) :
    q.Spent := by
  obtain ⟨hclosed, hdelayed⟩ := h
  rw [closed_addAfter] at hclosed
  refine ⟨hclosed, ?_⟩
  unfold addAfter at hdelayed
  cases hd : q.admission d with
  | now => simpa [hd] using hdelayed
  | later => exact absurd hclosed (by simp [not_closed_of_later hd])
  | refused => simpa [hd] using hdelayed

theorem spent_of_take {q : WorkQueue α} (h : q.take.Spent) : q.Spent := by
  cases hw : q.waiting with
  | nil => rwa [take_of_empty hw] at h
  | cons x rest => exact ⟨(closed_take hw).symm.trans h.1, (delayed_take hw).symm.trans h.2⟩

/-- **When no item will come any more and this is new, all consumers are called.** -/
theorem called_of_spent (s : Floor α) (m : Move α) (h : (s.next m).queue.Spent) :
    s.queue.Spent ∨ .allConsumers ∈ s.queue.callsOf m := by
  cases m with
  | add x => exact .inl ⟨(closed_add _ x).symm.trans h.1, (delayed_add _ x).symm.trans h.2⟩
  | addAfter x d => exact .inl (spent_of_addAfter h)
  | addRateLimited x => exact .inl (spent_of_addAfter (q := s.queue.recordFailure x) h)
  | recordFailure x => exact .inl h
  | forget x => exact .inl h
  | done x => exact .inl h
  | shutDown => exact .inr (List.mem_singleton_self _)
  | land x =>
    have hclosed : s.queue.closed = true := (closed_land _ x).symm.trans h.1
    have hdelayed : (s.queue.land x).delayed = 0 := h.2
    exact .inr (by simpa [callsOf, landCalls, hclosed] using hdelayed)
  | take => exact .inl (spent_of_take h)

/-! ## The queue is idle -/

theorem idle_of_add {q : WorkQueue α} {x : α} (h : (q.add x).isIdle = true) : q.isIdle = true := by
  unfold add at h
  split at h
  · exact h
  · rw [isIdle_iff, waiting_push, processing_push, delayed_push] at h
    exact (isIdle_iff q).mpr ⟨(List.append_eq_nil_iff.mp h.1).1, h.2⟩

theorem idle_of_addAfter {q : WorkQueue α} {x : α} {d : Duration}
    (h : (q.addAfter x d).isIdle = true) : q.isIdle = true := by
  unfold addAfter at h
  split at h
  · exact idle_of_add h
  · exact absurd ((isIdle_iff _).mp h).2.2 (Nat.succ_ne_zero _)
  · exact h

/-- A queue is not idle after a hand-out. -/
theorem idle_of_take {q : WorkQueue α} (h : q.take.isIdle = true) : q.isIdle = true := by
  cases hw : q.waiting with
  | nil => rwa [take_of_empty hw] at h
  | cons x rest =>
    obtain ⟨-, hprocessing, -⟩ := (isIdle_iff _).mp h
    rw [processing_take hw] at hprocessing
    split at hprocessing
    · rename_i hx
      rw [hprocessing] at hx
      exact absurd hx (by simp)
    · exact absurd hprocessing (by simp)

/-- **When a queue has become idle, all drains are called.** -/
theorem called_of_idle (s : Floor α) (m : Move α) (h : (s.next m).queue.isIdle = true) :
    s.queue.isIdle = true ∨ .allDrains ∈ s.queue.callsOf m := by
  cases m with
  | add x => exact .inl (idle_of_add h)
  | addAfter x d => exact .inl (idle_of_addAfter h)
  | addRateLimited x => exact .inl (idle_of_addAfter (q := s.queue.recordFailure x) h)
  | recordFailure x => exact .inl h
  | forget x => exact .inl h
  | shutDown => exact .inl h
  | land x =>
    replace h : (s.queue.land x).isIdle = true := h
    exact .inr (by simp [callsOf, landCalls, h])
  | take => exact .inl (idle_of_take h)
  | done x =>
    replace h : (s.queue.done x).isIdle = true := h
    cases hx : s.queue.dirty.contains x with
    | true => exact absurd ((isIdle_iff _).mp h).1 (by simp [WorkQueue.done, hx])
    | false => exact .inr (by simp [callsOf, doneCalls, hx, h])

end BorderSync.WorkQueue
