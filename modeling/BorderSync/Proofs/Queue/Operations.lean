/-
# BorderSync.Proofs.Queue.Operations -- what each operation does to the parts of a queue

Whether an item is waiting, dirty or in hand is asked with `contains`, which compares with `==`.
Each operation is described once by its effect on these views; nothing after this module opens an
operation again. A queue is **sound** when the three lists fit together: an item waits exactly when
it is dirty and not in hand, and no list has an item twice.
-/
import BorderSync.Queue.WorkQueue

namespace BorderSync

variable {α : Type} [BEq α]

/-- No two places of a list hold equal items. -/
def OnceEach (xs : List α) : Prop :=
  xs.Pairwise fun a b => (a == b) = false

namespace OnceEach

theorem nil : OnceEach ([] : List α) :=
  List.Pairwise.nil

theorem sublist {xs ys : List α} (h : OnceEach ys) (hs : xs.Sublist ys) : OnceEach xs :=
  List.Pairwise.sublist hs h

/-- An item that a list does not hold may be put at its end. -/
theorem concat [EquivBEq α] {xs : List α} (h : OnceEach xs) {x : α}
    (hx : xs.contains x = false) : OnceEach (xs ++ [x]) := by
  refine List.pairwise_append.mpr ⟨h, List.pairwise_singleton _ _, ?_⟩
  intro a ha b hb
  rw [List.mem_singleton.mp hb]
  refine Bool.eq_false_iff.mpr ?_
  intro hax
  have hxs : xs.contains x = true :=
    List.contains_iff_exists_mem_beq.mpr ⟨a, ha, BEq.symm hax⟩
  exact Bool.false_ne_true (hx.symm.trans hxs)

/-- The first item of a list is not among the others. -/
theorem head_not_in_tail {x : α} {xs : List α} (h : OnceEach (x :: xs)) :
    xs.contains x = false := by
  refine Bool.eq_false_iff.mpr ?_
  intro hx
  obtain ⟨a, ha, hxa⟩ := List.contains_iff_exists_mem_beq.mp hx
  exact Bool.false_ne_true ((List.rel_of_pairwise_cons h ha).symm.trans hxa)

end OnceEach

/-- A list without the items equal to `x` holds the others as before. -/
theorem contains_without [EquivBEq α] (xs : List α) (x y : α) :
    (xs.filter fun z => !(z == x)).contains y = (xs.contains y && !(y == x)) := by
  induction xs with
  | nil => simp
  | cons z xs ih =>
    by_cases hz : z == x
    · rw [List.filter_cons_of_neg (by simp [hz]), ih, List.contains_cons, BEq.congr_right hz]
      cases y == x <;> simp
    · rw [List.filter_cons_of_pos (by simp [hz]), List.contains_cons, List.contains_cons, ih]
      by_cases hyz : y == z
      · have hyx : (y == x) = false := by rw [BEq.congr_left hyz]; exact Bool.eq_false_iff.mpr hz
        rw [hyz, hyx, Bool.not_false, Bool.and_true, Bool.and_true]
      · rw [Bool.eq_false_iff.mpr hyz, Bool.false_or, Bool.false_or]

/-- A predicate that does not tell equal items apart. -/
def Coarse (p : α → Bool) : Prop :=
  ∀ a b, (a == b) = true → p a = p b

/-- Being equal to `x` is such a predicate. -/
theorem coarse_beq [EquivBEq α] (x : α) : Coarse (x == ·) :=
  fun _ _ h => BEq.congr_right h

/-- Taking one item equal to `x` out of a list takes away one of its kind. -/
theorem countP_eraseP [EquivBEq α] {p : α → Bool} (hp : Coarse p) {x : α} {xs : List α}
    (h : xs.contains x = true) : (xs.eraseP (· == x)).countP p + (p x).toNat = xs.countP p := by
  induction xs with
  | nil => simp at h
  | cons z xs ih =>
    by_cases hz : z == x
    · rw [List.eraseP_cons_of_pos (by exact hz), List.countP_cons, ← hp z x hz]
      cases p z <;> rfl
    · have hxs : xs.contains x = true := by
        rw [List.contains_cons, Bool.or_eq_true] at h
        exact h.resolve_left fun hxz => hz (BEq.symm hxz)
      rw [List.eraseP_cons_of_neg (by simpa using hz), List.countP_cons, List.countP_cons, ← ih hxs]
      omega

/-- In a list that holds every item once, at most one item is equal to `x`. -/
theorem OnceEach.without_eq_eraseP [EquivBEq α] {xs : List α} (h : OnceEach xs) (x : α) :
    (xs.filter fun z => !(z == x)) = xs.eraseP (· == x) := by
  induction xs with
  | nil => rfl
  | cons z xs ih =>
    by_cases hz : z == x
    · have hxs : ∀ a ∈ xs, (!(a == x)) = true := by
        intro a ha
        rw [← BEq.congr_right hz, Bool.not_eq_true', BEq.comm]
        exact List.rel_of_pairwise_cons h ha
      rw [List.eraseP_cons_of_pos (by exact hz), List.filter_cons_of_neg (by simp [hz]),
        List.filter_eq_self.mpr hxs]
    · rw [List.eraseP_cons_of_neg (by simpa using hz), List.filter_cons_of_pos (by simp [hz]),
        ih (List.Pairwise.of_cons h)]

/-- From a list that holds every item once, taking out one equal to `x` takes out all of them. -/
theorem contains_eraseP [EquivBEq α] {xs : List α} (h : OnceEach xs) (x y : α) :
    (xs.eraseP (· == x)).contains y = (xs.contains y && !(y == x)) := by
  rw [← h.without_eq_eraseP, contains_without]

namespace WorkQueue

omit [BEq α] in
theorem isIdle_iff (q : WorkQueue α) :
    q.isIdle = true ↔ q.waiting = [] ∧ q.processing = [] ∧ q.delayed = 0 := by
  simp only [isIdle, Bool.and_eq_true, List.isEmpty_iff, beq_iff_eq, and_assoc]

/-! ## Taking in -/

/-- Taking an item in makes it dirty. -/
theorem dirty_push (q : WorkQueue α) (x y : α) [EquivBEq α] :
    (q.push x).dirty.contains y = (q.dirty.contains y || y == x) := by
  unfold push
  by_cases hx : q.dirty.contains x
  · rw [if_pos hx]
    by_cases hy : y == x
    · rw [List.contains_congr hy, hx, Bool.true_or]
    · rw [Bool.eq_false_iff.mpr hy, Bool.or_false]
  · rw [if_neg hx, List.contains_append, List.contains_cons, List.contains_nil, Bool.or_false]

/-- Taking an item in puts it at the end of those that wait, unless it is dirty or in hand. -/
theorem waiting_push (q : WorkQueue α) (x : α) :
    (q.push x).waiting = q.waiting ++ (if q.enters x then [x] else []) := by
  unfold push enters
  cases q.dirty.contains x <;> cases q.processing.contains x <;> simp

@[simp] theorem processing_push (q : WorkQueue α) (x : α) :
    (q.push x).processing = q.processing := by
  unfold push
  split <;> rfl

@[simp] theorem delayed_push (q : WorkQueue α) (x : α) : (q.push x).delayed = q.delayed := by
  unfold push
  split <;> rfl

@[simp] theorem closed_push (q : WorkQueue α) (x : α) : (q.push x).closed = q.closed := by
  unfold push
  split <;> rfl

omit [BEq α] in
/-- A queue that is shut down accepts no delay. -/
theorem not_closed_of_later {q : WorkQueue α} {d : Duration} (h : q.admission d = .later) :
    q.closed = false := by
  unfold admission at h
  split at h
  · exact absurd h (by simp)
  · cases hc : q.closed with
    | false => rfl
    | true => simp [hc] at h

@[simp] theorem closed_add (q : WorkQueue α) (x : α) : (q.add x).closed = q.closed := by
  unfold add
  split
  · rfl
  · exact closed_push q x

@[simp] theorem processing_add (q : WorkQueue α) (x : α) :
    (q.add x).processing = q.processing := by
  unfold add
  split <;> simp

@[simp] theorem delayed_add (q : WorkQueue α) (x : α) : (q.add x).delayed = q.delayed := by
  unfold add
  split <;> simp

@[simp] theorem closed_addAfter (q : WorkQueue α) (x : α) (d : Duration) :
    (q.addAfter x d).closed = q.closed := by
  unfold addAfter
  split <;> simp [announce]

@[simp] theorem processing_addAfter (q : WorkQueue α) (x : α) (d : Duration) :
    (q.addAfter x d).processing = q.processing := by
  unfold addAfter
  split <;> simp [announce]

@[simp] theorem processing_land (q : WorkQueue α) (x : α) :
    (q.land x).processing = q.processing := by
  simp [land]

@[simp] theorem delayed_land (q : WorkQueue α) (x : α) :
    (q.land x).delayed = q.delayed - 1 := by
  simp [land]

@[simp] theorem closed_land (q : WorkQueue α) (x : α) : (q.land x).closed = q.closed :=
  closed_push _ x

/-! ## Handing out -/

omit [BEq α] in
/-- An item is handed out exactly when it is the first that waits. -/
theorem hand_eq_item_iff (q : WorkQueue α) (x : α) :
    q.hand = .item x ↔ ∃ rest, q.waiting = x :: rest := by
  unfold hand
  cases q.waiting with
  | nil => simp only [reduceCtorEq, exists_false, iff_false]; split <;> simp
  | cons y rest => simp [eq_comm]

omit [BEq α] in
/-- Without an item that waits none is handed out. -/
theorem hand_of_empty {q : WorkQueue α} (h : q.waiting = []) :
    q.hand = if q.closed && q.delayed == 0 then .finished else .notYet := by
  unfold hand
  rw [h]

/-- Without an item to hand out a consumer leaves the queue as it is. -/
theorem take_of_empty {q : WorkQueue α} (h : q.waiting = []) : q.take = q := by
  unfold take
  rw [h]

section Take

variable {q : WorkQueue α} {x : α} {rest : List α} (h : q.waiting = x :: rest)
include h

theorem waiting_take : q.take.waiting = rest := by
  unfold take
  rw [h]

theorem delayed_take : q.take.delayed = q.delayed := by
  unfold take
  rw [h]

theorem closed_take : q.take.closed = q.closed := by
  unfold take
  rw [h]

/-- An item that is handed out is not dirty any more. -/
theorem dirty_take : q.take.dirty = q.dirty.filter fun y => !(y == x) := by
  unfold take
  rw [h]

/-- An item that is handed out is in hand. -/
theorem processing_take : q.take.processing =
    if q.processing.contains x then q.processing else q.processing ++ [x] := by
  unfold take
  rw [h]

end Take

/-! ## Queues whose lists fit together -/

/-- **Sound**: an item waits exactly when it is dirty and not in hand; no list has an item twice. -/
structure Sound (q : WorkQueue α) : Prop where
  waiting_once : OnceEach q.waiting
  dirty_once : OnceEach q.dirty
  processing_once : OnceEach q.processing
  waits : ∀ y, q.waiting.contains y = (q.dirty.contains y && !q.processing.contains y)

namespace Sound

variable {q : WorkQueue α}

theorem new (name : String) (base max : Duration) :
    (WorkQueue.new name base max : WorkQueue α).Sound :=
  ⟨.nil, .nil, .nil, fun _ => rfl⟩

theorem announce (h : q.Sound) : q.announce.Sound :=
  ⟨h.waiting_once, h.dirty_once, h.processing_once, h.waits⟩

theorem recordFailure (h : q.Sound) (x : α) : (q.recordFailure x).Sound :=
  ⟨h.waiting_once, h.dirty_once, h.processing_once, h.waits⟩

theorem forget (h : q.Sound) (x : α) : (q.forget x).Sound :=
  ⟨h.waiting_once, h.dirty_once, h.processing_once, h.waits⟩

theorem shutDown (h : q.Sound) : q.shutDown.Sound :=
  ⟨h.waiting_once, h.dirty_once, h.processing_once, h.waits⟩

variable [EquivBEq α]

theorem push (h : q.Sound) (x : α) : (q.push x).Sound := by
  by_cases hx : q.dirty.contains x
  · rw [show q.push x = q by unfold WorkQueue.push; rw [if_pos hx]]
    exact h
  · have hdirty : q.dirty.contains x = false := Bool.eq_false_iff.mpr hx
    have hwaits : q.waiting.contains x = false := by rw [h.waits, hdirty, Bool.false_and]
    have hwaiting := q.waiting_push x
    have henters : q.enters x = !q.processing.contains x := by
      unfold enters
      rw [hdirty, Bool.not_false, Bool.true_and]
    refine ⟨?_, ?_, ?_, ?_⟩
    · rw [hwaiting]
      split
      · exact h.waiting_once.concat hwaits
      · rw [List.append_nil]
        exact h.waiting_once
    · unfold WorkQueue.push
      rw [if_neg hx]
      exact h.dirty_once.concat hdirty
    · rw [processing_push]
      exact h.processing_once
    · intro y
      rw [hwaiting, dirty_push, processing_push, List.contains_append, h.waits, henters]
      by_cases hy : y == x
      · rw [List.contains_congr hy (l := q.processing), List.contains_congr hy (l := q.dirty), hy,
          hdirty]
        cases q.processing.contains x <;> simp [hy]
      · rw [Bool.eq_false_iff.mpr hy, Bool.or_false]
        split <;> simp [hy]

theorem add (h : q.Sound) (x : α) : (q.add x).Sound := by
  unfold WorkQueue.add
  split
  · exact h
  · exact h.push x

theorem land (h : q.Sound) (x : α) : (q.land x).Sound :=
  push (q := { q with delayed := q.delayed - 1 })
    ⟨h.waiting_once, h.dirty_once, h.processing_once, h.waits⟩ x

theorem addAfter (h : q.Sound) (x : α) (d : Duration) : (q.addAfter x d).Sound := by
  unfold WorkQueue.addAfter
  split
  · exact h.add x
  · exact h.announce
  · exact h

/-- The first item that waits is dirty and not in hand. -/
theorem of_first (h : q.Sound) {x : α} {rest : List α} (hw : q.waiting = x :: rest) :
    q.dirty.contains x = true ∧ q.processing.contains x = false := by
  have hx : q.waiting.contains x = true := by
    rw [hw, List.contains_cons, BEq.rfl, Bool.true_or]
  rw [h.waits, Bool.and_eq_true, Bool.not_eq_true'] at hx
  exact hx

theorem take (h : q.Sound) : q.take.Sound := by
  cases hw : q.waiting with
  | nil =>
    rw [take_of_empty hw]
    exact h
  | cons x rest =>
    -- the item that is handed out is in nobody's hand, so it joins those in hand once
    obtain ⟨-, hprocessing⟩ := h.of_first hw
    have honce : OnceEach (x :: rest) := hw ▸ h.waiting_once
    refine ⟨?_, ?_, ?_, ?_⟩
    · rw [waiting_take hw]
      exact honce.sublist (List.sublist_cons_self x rest)
    · rw [dirty_take hw]
      exact h.dirty_once.sublist List.filter_sublist
    · rw [processing_take hw, if_neg (Bool.eq_false_iff.mp hprocessing)]
      exact h.processing_once.concat hprocessing
    · intro y
      rw [waiting_take hw, dirty_take hw, processing_take hw,
        if_neg (Bool.eq_false_iff.mp hprocessing), contains_without, List.contains_append,
        List.contains_cons, List.contains_nil, Bool.or_false]
      have hy := h.waits y
      rw [hw, List.contains_cons] at hy
      by_cases hyx : y == x
      · rw [List.contains_congr hyx, honce.head_not_in_tail, hyx]
        simp
      · rw [Bool.eq_false_iff.mpr hyx, Bool.false_or] at hy
        rw [hy, Bool.eq_false_iff.mpr hyx]
        simp

/-- What is dirty waits or is in hand: an idle queue has no dirty items. -/
theorem dirty_of_isIdle (h : q.Sound) (hidle : q.isIdle = true) : q.dirty = [] := by
  obtain ⟨hwaiting, hprocessing, -⟩ := (isIdle_iff q).mp hidle
  refine List.eq_nil_iff_forall_not_mem.mpr ?_
  intro x hx
  have hwaits := h.waits x
  rw [hwaiting, hprocessing, List.contains_iff_exists_mem_beq.mpr ⟨x, hx, BEq.rfl⟩] at hwaits
  exact absurd hwaits (by simp)

/-- Being done with an item keeps a queue sound if the item is in hand. -/
theorem done (h : q.Sound) {x : α} (hx : q.processing.contains x = true) : (q.done x).Sound := by
  -- what is in hand does not wait, so it can be put back
  have hwaits : q.waiting.contains x = false := by rw [h.waits, hx]; simp
  refine ⟨?_, h.dirty_once, h.processing_once.sublist List.filter_sublist, ?_⟩
  · show OnceEach (if q.dirty.contains x then q.waiting ++ [x] else q.waiting)
    split
    · exact h.waiting_once.concat hwaits
    · exact h.waiting_once
  · intro y
    show (if q.dirty.contains x then q.waiting ++ [x] else q.waiting).contains y
      = (q.dirty.contains y && !(q.processing.filter fun z => !(z == x)).contains y)
    rw [contains_without]
    by_cases hy : y == x
    · rw [List.contains_congr hy, List.contains_congr hy (l := q.dirty), hy]
      split
      · rename_i hd
        rw [hd, List.contains_append, List.contains_cons, BEq.rfl]
        simp
      · rename_i hd
        rw [hwaits, Bool.eq_false_iff.mpr hd, Bool.false_and]
    · have hyx : (y == x) = false := Bool.eq_false_iff.mpr hy
      rw [hyx, Bool.not_false, Bool.and_true, ← h.waits]
      split
      · rw [List.contains_append, List.contains_cons, hyx, List.contains_nil, Bool.or_false,
          Bool.or_false]
      · rfl

end Sound

end WorkQueue

end BorderSync
