/-
# BorderSync.Proofs.Queue.Renamed -- a queue knows its items only by comparing them

A queue never looks into an item: it compares items, and counts the failures of equal ones together. So it
does not matter what its items are. Give every item a name, the same one exactly to items that compare
equal; then what is done to a queue of names is what is done to the queue of the items. Two queues whose
items have the same names are told apart by nothing that is done to them.
-/
import BorderSync.Proofs.Queue.Moves

namespace BorderSync

variable {α β ν : Type}

/-! ## Names -/

/-- A **naming**: items compare equal exactly if their names do. -/
def IsNaming [BEq α] [BEq β] (f : α → β) : Prop :=
  ∀ x y, (f x == f y) = (x == y)

section Lists

variable [BEq α] [BEq β] {f : α → β} (hf : IsNaming f)

include hf

theorem contains_rename (l : List α) (x : α) : (l.map f).contains (f x) = l.contains x := by
  induction l with
  | nil => rfl
  | cons y l ih => rw [List.map_cons, List.contains_cons, List.contains_cons, ih, hf]

theorem without_rename (l : List α) (x : α) :
    ((l.map f).filter fun y => !(y == f x)) = (l.filter fun y => !(y == x)).map f := by
  rw [List.filter_map]
  refine congrArg (List.map f) (List.filter_congr fun y _ => ?_)
  rw [Function.comp, hf]

theorem eraseP_rename (l : List α) (x : α) :
    (l.map f).eraseP (· == f x) = (l.eraseP (· == x)).map f := by
  rw [List.eraseP_map]
  refine congrArg (List.map f) (congrArg (List.eraseP · l) (funext fun y => ?_))
  rw [Function.comp, hf]

end Lists

/-! ## Tables -/

namespace Table

/-- A table with other keys. -/
def rename (f : α → β) (t : Table α ν) : Table β ν :=
  ⟨t.entries.map fun e => (f e.1, e.2)⟩

variable [BEq α] [BEq β] {f : α → β} (hf : IsNaming f) (t : Table α ν) (k : α)

include hf

theorem get?_rename : (t.rename f).get? (f k) = t.get? k := by
  unfold get? rename
  induction t.entries with
  | nil => rfl
  | cons e entries ih => rw [List.map_cons, List.lookup_cons, List.lookup_cons, ih, hf]

theorem erase_rename : (t.rename f).erase (f k) = (t.erase k).rename f := by
  unfold erase rename
  rw [List.filter_map]
  refine congrArg Table.mk (congrArg (List.map _) (List.filter_congr fun e _ => ?_))
  rw [Function.comp, hf]

theorem insert_rename (v : ν) : (t.rename f).insert (f k) v = (t.insert k v).rename f := by
  unfold insert
  rw [erase_rename hf]
  rfl

end Table

/-! ## Failures -/

namespace Backoff

/-- Failures under other names. -/
def rename (f : α → β) (b : Backoff α) : Backoff β :=
  ⟨b.base, b.max, b.failures.rename f⟩

variable [BEq α] [BEq β] {f : α → β} (hf : IsNaming f) (b : Backoff α) (x : α)

include hf

theorem count_rename : (b.rename f).count (f x) = b.count x :=
  congrArg (Option.getD · 0) (b.failures.get?_rename hf x)

theorem wait_rename : (b.rename f).wait (f x) = b.wait x := by
  unfold wait
  rw [count_rename hf]
  rfl

theorem forget_rename : (b.rename f).forget (f x) = (b.forget x).rename f :=
  congrArg (Backoff.mk b.base b.max) (b.failures.erase_rename hf x)

theorem record_rename : (b.rename f).record (f x) = (b.record x).rename f := by
  unfold record
  rw [count_rename hf]
  exact congrArg (Backoff.mk b.base b.max) (b.failures.insert_rename hf x _)

end Backoff

namespace WorkQueue

/-! ## Queues -/

/-- A queue of names. -/
def rename (f : α → β) (q : WorkQueue α) : WorkQueue β where
  name := q.name
  backoff := q.backoff.rename f
  waiting := q.waiting.map f
  dirty := q.dirty.map f
  processing := q.processing.map f
  delayed := q.delayed
  closed := q.closed

/-- The name of what a consumer gets. -/
def Hand.rename (f : α → β) : Hand α → Hand β
  | .item x => .item (f x)
  | .finished => .finished
  | .notYet => .notYet

section Operations

variable (f : α → β) (q : WorkQueue α)

theorem isIdle_rename : (q.rename f).isIdle = q.isIdle := by
  simp [isIdle, rename]

theorem hand_rename : (q.rename f).hand = q.hand.rename f := by
  unfold hand rename
  cases q.waiting with
  | nil => cases q.closed && q.delayed == 0 <;> rfl
  | cons x rest => rfl

theorem admission_rename (d : Duration) : (q.rename f).admission d = q.admission d :=
  rfl

variable {f} [BEq α] [BEq β] (hf : IsNaming f) (x : α)

include hf

theorem push_rename : (q.rename f).push (f x) = (q.push x).rename f := by
  unfold push rename
  simp only [contains_rename hf]
  split
  · rfl
  · split <;> simp

theorem add_rename : (q.rename f).add (f x) = (q.add x).rename f := by
  unfold add
  rw [push_rename q hf, show (q.rename f).closed = q.closed from rfl]
  split <;> rfl

theorem addAfter_rename (d : Duration) : (q.rename f).addAfter (f x) d = (q.addAfter x d).rename f := by
  unfold addAfter
  rw [admission_rename, add_rename q hf]
  cases q.admission d <;> rfl

theorem land_rename : (q.rename f).land (f x) = (q.land x).rename f :=
  push_rename { q with delayed := q.delayed - 1 } hf x

theorem recordFailure_rename : (q.rename f).recordFailure (f x) = (q.recordFailure x).rename f := by
  unfold recordFailure
  rw [show (q.rename f).backoff = q.backoff.rename f from rfl, Backoff.record_rename hf]
  rfl

theorem forget_rename : (q.rename f).forget (f x) = (q.forget x).rename f := by
  unfold forget
  rw [show (q.rename f).backoff = q.backoff.rename f from rfl, Backoff.forget_rename hf]
  rfl

theorem take_rename : (q.rename f).take = q.take.rename f := by
  cases hw : q.waiting with
  | nil =>
    have hnone : (q.rename f).waiting = [] := by simp [rename, hw]
    rw [take_of_empty hw, take_of_empty hnone]
  | cons y rest =>
    unfold take rename
    simp only [hw, List.map_cons, contains_rename hf, without_rename hf]
    split <;> simp

theorem done_rename : (q.rename f).done (f x) = (q.done x).rename f := by
  unfold done rename
  simp only [contains_rename hf, without_rename hf]
  split <;> simp

end Operations

/-! ## Moves -/

/-- A move with the names of its items. -/
def Move.rename (f : α → β) : Move α → Move β
  | .add x => .add (f x)
  | .addAfter x d => .addAfter (f x) d
  | .addRateLimited x => .addRateLimited (f x)
  | .recordFailure x => .recordFailure (f x)
  | .forget x => .forget (f x)
  | .land x => .land (f x)
  | .take => .take
  | .done x => .done (f x)
  | .shutDown => .shutDown

namespace Floor

/-- A queue of names, and the names of what is under way around it. -/
def rename (f : α → β) (s : Floor α) : Floor β where
  queue := s.queue.rename f
  coming := s.coming.map f
  hands := s.hands.map f

variable [BEq α] [BEq β] {f : α → β} (hf : IsNaming f) (s : Floor α)

include hf

theorem addAfter_rename (x : α) (d : Duration) :
    (s.rename f).addAfter (f x) d = (s.addAfter x d).rename f := by
  unfold addAfter rename
  simp only [WorkQueue.addAfter_rename s.queue hf, admission_rename]
  cases s.queue.admission d <;> simp

theorem take_rename : (s.rename f).take = s.take.rename f := by
  unfold take rename
  simp only [WorkQueue.take_rename s.queue hf, hand_rename]
  cases s.queue.hand <;> simp [Hand.rename]

/-- **A move of names is the move of the items.** -/
theorem next_rename (m : Move α) : (s.rename f).next (m.rename f) = (s.next m).rename f := by
  cases m with
  | add x => exact congrArg (Floor.mk · (s.coming.map f) (s.hands.map f)) (s.queue.add_rename hf x)
  | addAfter x d => exact s.addAfter_rename hf x d
  | addRateLimited x =>
    have hrecord := s.queue.recordFailure_rename hf x
    have hwait := s.queue.backoff.wait_rename hf x
    have hadd := addAfter_rename hf { s with queue := s.queue.recordFailure x } x (s.queue.backoff.wait x)
    simp only [next, Move.rename] at hadd ⊢
    rw [← hadd]
    simp only [rename, ← hrecord, ← hwait]
    rfl
  | recordFailure x =>
    exact congrArg (Floor.mk · (s.coming.map f) (s.hands.map f)) (s.queue.recordFailure_rename hf x)
  | forget x => exact congrArg (Floor.mk · (s.coming.map f) (s.hands.map f)) (s.queue.forget_rename hf x)
  | land x =>
    show Floor.mk ((s.queue.rename f).land (f x)) ((s.coming.map f).eraseP (· == f x)) (s.hands.map f) = _
    rw [s.queue.land_rename hf, eraseP_rename hf]
    rfl
  | take => exact s.take_rename hf
  | done x =>
    show Floor.mk ((s.queue.rename f).done (f x)) (s.coming.map f) ((s.hands.map f).eraseP (· == f x)) = _
    rw [s.queue.done_rename hf, eraseP_rename hf]
    rfl
  | shutDown => rfl

/-- A move of names is allowed if the move of the items is. -/
theorem allows_rename (m : Move α) : (s.rename f).allows (m.rename f) = s.allows m := by
  cases m with
  | land x => exact contains_rename hf s.coming x
  | done x => exact contains_rename hf s.hands x
  | _ => rfl

end Floor

end WorkQueue

end BorderSync
