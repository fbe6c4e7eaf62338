/-
# BorderSync.Proofs.Queue.Load -- work of one kind on its way to a consumer

What was accepted and not handed out is a delayed add that is under way, or a dirty item. How many of
these are of one kind says whether a consumer will still see that kind. Equal items become one on the
way, so the number may fall while work goes through a queue; it never falls to zero before a hand-out,
and a hand-out lowers it by exactly one.
-/
import BorderSync.Proofs.Queue.Moves

namespace BorderSync.WorkQueue

variable {α : Type} [BEq α] {p : α → Bool}

/-- Taking an item in adds at most that item, and afterwards its kind is there. -/
theorem countP_push (hp : Coarse p) (q : WorkQueue α) (x : α) :
    q.dirty.countP p ≤ (q.push x).dirty.countP p ∧
      (q.push x).dirty.countP p ≤ q.dirty.countP p + (p x).toNat ∧
      (p x = true → 0 < (q.push x).dirty.countP p) := by
  unfold push
  split
  · rename_i hx
    refine ⟨Nat.le_refl _, Nat.le_add_right _ _, fun hpx => ?_⟩
    obtain ⟨y, hy, hxy⟩ := List.contains_iff_exists_mem_beq.mp hx
    exact List.countP_pos_iff.mpr ⟨y, hy, hp x y hxy ▸ hpx⟩
  · show _ ≤ (q.dirty ++ [x]).countP p ∧ (q.dirty ++ [x]).countP p ≤ _ ∧
      (_ → 0 < (q.dirty ++ [x]).countP p)
    rw [List.countP_append, List.countP_singleton]
    cases p x <;> simp

namespace Floor

/-- **Load**: how much work of one kind was accepted and not handed out. -/
def load (p : α → Bool) (s : Floor α) : Nat :=
  s.coming.countP p + s.queue.dirty.countP p

/-- An open queue accepts an item for now or for later. -/
theorem load_addAfter (hp : Coarse p) (s : Floor α) (hopen : s.queue.closed = false) (x : α)
    (d : Duration) :
    s.load p ≤ (s.addAfter x d).load p ∧ (s.addAfter x d).load p ≤ s.load p + (p x).toNat ∧
      (p x = true → 0 < (s.addAfter x d).load p) := by
  unfold load addAfter WorkQueue.addAfter admission
  by_cases hd : d.nanos = 0
  · obtain ⟨hle, hle', hpos⟩ := countP_push hp s.queue x
    simp only [hd, if_true, add, hopen, Bool.false_eq_true, if_false]
    refine ⟨by omega, by omega, fun hpx => ?_⟩
    have := hpos hpx
    omega
  · simp only [hd, hopen, Bool.false_eq_true, if_false, announce, List.countP_append,
      List.countP_singleton]
    cases p x <;> simp
    omega

variable [EquivBEq α]

/-- A delayed add that lands is there as a dirty item afterwards. -/
theorem load_land (hp : Coarse p) (s : Floor α) {x : α} (hx : s.coming.contains x = true) :
    (s.next (.land x)).load p ≤ s.load p ∧ (0 < s.load p → 0 < (s.next (.land x)).load p) := by
  have hcount := countP_eraseP hp hx
  obtain ⟨hle, hle', hpos⟩ : s.queue.dirty.countP p ≤ (s.queue.land x).dirty.countP p ∧
      (s.queue.land x).dirty.countP p ≤ s.queue.dirty.countP p + (p x).toNat ∧
      (p x = true → 0 < (s.queue.land x).dirty.countP p) :=
    countP_push hp { s.queue with delayed := s.queue.delayed - 1 } x
  show (s.coming.eraseP (· == x)).countP p + (s.queue.land x).dirty.countP p ≤ s.load p ∧
    (0 < s.load p → 0 < (s.coming.eraseP (· == x)).countP p + (s.queue.land x).dirty.countP p)
  unfold load
  refine ⟨by omega, fun hload => ?_⟩
  by_cases hpx : p x = true
  · have := hpos hpx
    omega
  · -- an item of another kind leaves both numbers as they are
    rw [Bool.eq_false_iff.mpr hpx, Bool.toNat_false] at hcount hle'
    omega

/-- A hand-out takes away one of its kind. -/
theorem load_take (hp : Coarse p) {s : Floor α} (hs : s.queue.Sound) {x : α} {rest : List α}
    (hw : s.queue.waiting = x :: rest) : s.take.load p + (p x).toNat = s.load p := by
  show s.coming.countP p + s.queue.take.dirty.countP p + (p x).toNat = s.load p
  rw [dirty_take hw, hs.dirty_once.without_eq_eraseP, Nat.add_assoc,
    countP_eraseP hp (hs.of_first hw).1]
  rfl

/-- **Taken with a delay**: what becomes of an item that is added to an open queue. -/
structure TakenWith (x : α) (d : Duration) (before after : Floor α) : Prop where
  on_its_way : 0 < after.load (x == ·)
  /-- Without a delay it is dirty at once. -/
  now : d.nanos = 0 → after.queue.dirty.contains x = true
  /-- With a delay it is announced, and under way to the queue. -/
  later : d.nanos ≠ 0 → after.coming = before.coming ++ [x] ∧ after.queue.delayed = before.queue.delayed + 1

theorem takenWith_addAfter {s : Floor α} (hopen : s.queue.closed = false) (x : α) (d : Duration) :
    TakenWith x d s (s.addAfter x d) where
  on_its_way := (load_addAfter (coarse_beq x) s hopen x d).2.2 (beq_self_eq_true x)
  now hzero := by
    have hadmission : s.queue.admission d = .now := by
      unfold admission
      rw [if_pos hzero]
    have hqueue : s.queue.addAfter x d = s.queue.push x := by
      rw [WorkQueue.addAfter, hadmission]
      exact if_neg (by rw [hopen]; decide)
    show (s.queue.addAfter x d).dirty.contains x = true
    rw [hqueue, dirty_push, beq_self_eq_true, Bool.or_true]
  later hnonzero := by
    have hadmission : s.queue.admission d = .later := by
      unfold admission
      rw [if_neg hnonzero, hopen]
      rfl
    rw [addAfter, WorkQueue.addAfter, hadmission]
    exact ⟨rfl, rfl⟩

/-- An idle queue has nothing under way around it, and nobody has anything in hand. -/
theorem Sound.of_isIdle {s : Floor α} (h : s.Sound) (hidle : s.queue.isIdle = true) :
    s.load p = 0 ∧ ∀ x, s.hands.contains x = false := by
  obtain ⟨hwaiting, hprocessing, hdelayed⟩ := (isIdle_iff _).mp hidle
  have hcoming : s.coming = [] := List.length_eq_zero_iff.mp (h.delayed ▸ hdelayed)
  refine ⟨?_, fun x => ?_⟩
  · unfold load
    rw [hcoming, h.queue.dirty_of_isIdle hidle]
    rfl
  · rw [← h.in_hand x, hprocessing]
    rfl

end Floor

end BorderSync.WorkQueue
