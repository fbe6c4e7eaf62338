/-
# BorderSync.Proofs.Queue.Limiter -- a limiter that is called in any order

A limiter is told of failures, asked for counts and told to forget, by whoever uses it, about any items.
What it answers about one item depends on nothing but how often that item has failed since it was last
forgotten: the count is that number, as far as 32 bits reach, and the wait doubles with it. A product that
is too long for a span never shows, since it is longer than every maximum.
-/
import Mathlib.Algebra.Group.Nat.Defs
import Mathlib.Data.List.Induction
import BorderSync.Proofs.Queue.Backoff

namespace BorderSync

/-! ## Products of spans -/

namespace Duration

/-- Nanoseconds in a second. -/
def perSecond : Nat := 1000000000

/-- **A product part by part**: nanoseconds are carried over to seconds, and there is a product exactly
when the seconds have room in 64 bits. -/
theorem scale?_eq_parts (d : Duration) (k : Nat) :
    let carry := d.nanos % perSecond * k / perSecond
    d.scale? k =
      if d.nanos / perSecond * k + carry < 2 ^ 64 then
        some ⟨(d.nanos / perSecond * k + carry) * perSecond + d.nanos % perSecond * k % perSecond⟩
      else none := by
  intro carry
  have hparts : d.nanos * k =
      (d.nanos / perSecond * k + carry) * perSecond + d.nanos % perSecond * k % perSecond := by
    calc d.nanos * k
        = (perSecond * (d.nanos / perSecond) + d.nanos % perSecond) * k := by rw [Nat.div_add_mod]
      _ = d.nanos / perSecond * k * perSecond + d.nanos % perSecond * k := by
        rw [Nat.add_mul, Nat.mul_comm perSecond, Nat.mul_right_comm]
      _ = d.nanos / perSecond * k * perSecond +
            (perSecond * carry + d.nanos % perSecond * k % perSecond) := by rw [Nat.div_add_mod]
      _ = _ := by rw [Nat.add_mul, Nat.mul_comm perSecond carry, Nat.add_assoc]
  have hrest : d.nanos % perSecond * k % perSecond < perSecond := Nat.mod_lt _ (by decide)
  have hlongest : longest.nanos = (2 ^ 64 - 1) * perSecond + (perSecond - 1) := by decide
  unfold scale?
  rw [hparts, hlongest]
  generalize d.nanos / perSecond * k + carry = seconds
  generalize d.nanos % perSecond * k % perSecond = rest at hrest
  unfold perSecond at *
  by_cases hroom : seconds < 2 ^ 64
  · rw [if_pos hroom, if_pos (by omega)]
  · rw [if_neg hroom, if_neg (by omega)]

end Duration

namespace Backoff

variable {α : Type}

/-! ## Calls and answers -/

/-- **Call** on a limiter. -/
inductive Call (α : Type) where
  /-- An item has failed once more: how long to wait before it is tried again. -/
  | wait (x : α)
  /-- How often an item has failed since it was forgotten. -/
  | count (x : α)
  | forget (x : α)
  deriving DecidableEq, Repr

/-- What a call is answered. -/
inductive Answer where
  | wait (d : Duration)
  | count (n : Nat)
  | forgotten
  deriving DecidableEq, Repr

/-- A limiter that was not called yet. -/
def start (base max : Duration) : Backoff α :=
  ⟨base, max, .empty⟩

variable [BEq α]

namespace Call

/-- The call is about an item. -/
def isAbout (x : α) : Call α → Bool
  | .wait y => x == y
  | .count y => x == y
  | .forget y => x == y

/-- The item has failed once more. -/
def fails (x : α) : Call α → Bool
  | .wait y => x == y
  | _ => false

/-- The item is forgotten. -/
def forgets (x : α) : Call α → Bool
  | .forget y => x == y
  | _ => false

/-- **How often an item has failed** since it was last forgotten, or since the start. -/
def failures (x : α) (cs : List (Call α)) : Nat :=
  (cs.reverse.takeWhile fun c => !c.forgets x).countP (fails x)

/-- One more call: the item is forgotten, or it has failed once more, or nothing changes for it. -/
theorem failures_concat (x : α) (cs : List (Call α)) (c : Call α) :
    failures x (cs ++ [c]) = if c.forgets x then 0 else failures x cs + (c.fails x).toNat := by
  unfold failures
  rw [List.reverse_append, List.reverse_singleton, List.singleton_append, List.takeWhile_cons]
  by_cases hforgets : c.forgets x = true
  · rw [if_neg (by simp [hforgets]), if_pos hforgets]
    rfl
  · rw [if_pos (by simpa using hforgets), if_neg hforgets, List.countP_cons]
    cases c.fails x <;> rfl

/-- As long as an item is not forgotten, its failures are only added to. -/
theorem failures_le_append (x : α) (cs : List (Call α)) {ds : List (Call α)}
    (hkept : ∀ c ∈ ds, c.forgets x = false) : failures x cs ≤ failures x (cs ++ ds) := by
  induction ds using List.reverseRecOn with
  | nil => exact Nat.le_of_eq (congrArg _ (List.append_nil cs).symm)
  | append_singleton ds c ih =>
    have hc : c.forgets x = false := hkept c (by simp)
    rw [← List.append_assoc, failures_concat, if_neg (by simp [hc])]
    exact Nat.le_trans (ih fun c' hc' => hkept c' (by simp [hc'])) (Nat.le_add_right _ _)

end Call

/-- What a limiter answers. -/
def answer (b : Backoff α) : Call α → Answer
  | .wait x => .wait (b.wait x)
  | .count x => .count (b.count x)
  | .forget _ => .forgotten

/-- The limiter after a call. -/
def next (b : Backoff α) : Call α → Backoff α
  | .wait x => b.record x
  | .count _ => b
  | .forget x => b.forget x

/-- **The machine of a limiter**: any call may come at any moment. -/
def machine (α : Type) [BEq α] : Machine (Backoff α) (Call α) :=
  ⟨fun _ _ => true, next⟩

/-- Calls with their answers. -/
def history (b : Backoff α) (cs : List (Call α)) : List (Call α × Answer) :=
  (machine α).log (fun b c => [(c, b.answer c)]) b cs

/-! ## What is counted -/

/-- Equal items have the same count. -/
theorem count_congr [EquivBEq α] (b : Backoff α) {x y : α} (h : (x == y) = true) :
    b.count x = b.count y := by
  unfold count
  rw [b.failures.get?_congr h]

theorem run_concat (b : Backoff α) (cs : List (Call α)) (c : Call α) :
    (machine α).run b (cs ++ [c]) = ((machine α).run b cs).next c := by
  rw [Machine.run_append]
  rfl

/-- **A limiter counts the failures of an item since it was last forgotten**, as far as it can count. -/
theorem count_run [EquivBEq α] (base max : Duration) (cs : List (Call α)) (x : α) :
    ((machine α).run (start base max) cs).count x = min ceiling (Call.failures x cs) := by
  -- from the end, where a call decides whether counting starts again
  induction cs using List.reverseRecOn with
  | nil => rfl
  | append_singleton cs c ih =>
    rw [run_concat, Call.failures_concat]
    generalize (machine α).run (start base max) cs = b at ih
    cases c with
    | count y =>
      show b.count x = _
      rw [ih]
      rfl
    | forget y =>
      show (b.forget y).count x = min ceiling (if x == y then 0 else Call.failures x cs + 0)
      rw [count_forget]
      by_cases hxy : x == y
      · rw [if_pos hxy, if_pos hxy]
        rfl
      · rw [if_neg hxy, if_neg hxy, ih]
        rfl
    | wait y =>
      show (b.record y).count x = min ceiling (Call.failures x cs + (x == y).toNat)
      rw [count_record]
      by_cases hxy : x == y
      · rw [if_pos hxy, ← b.count_congr hxy, ih, hxy, Bool.toNat_true]
        omega
      · rw [if_neg hxy, ih, Bool.eq_false_iff.mpr hxy]
        rfl

/-- Calls leave the bounds of the wait as they are. -/
theorem bounds_run (b : Backoff α) (cs : List (Call α)) :
    ((machine α).run b cs).base = b.base ∧ ((machine α).run b cs).max = b.max := by
  induction cs using List.reverseRecOn with
  | nil => exact ⟨rfl, rfl⟩
  | append_singleton cs c ih =>
    rw [run_concat]
    cases c <;> exact ih

/-! ## Waits -/

omit [BEq α] in
/-- More failures than can be counted make no difference to the wait, which does not double any more. -/
theorem pause_ceiling (base max : Duration) (n : Nat) : pause base max (min ceiling n) = pause base max n := by
  have hceiling : 31 ≤ ceiling := by decide
  unfold pause
  rw [show min (min ceiling n) 31 = min n 31 by omega]

omit [BEq α] in
/-- The wait does not get shorter with more failures. -/
theorem pause_mono (base max : Duration) {m n : Nat} (h : m ≤ n) :
    (pause base max m).nanos ≤ (pause base max n).nanos := by
  have hpow : Nat.pow 2 (min m 31) ≤ Nat.pow 2 (min n 31) :=
    Nat.pow_le_pow_right (by decide) (by omega)
  have hmul := Nat.mul_le_mul_left base.nanos hpow
  show min max.nanos _ ≤ min max.nanos _
  omega

/-- **The wait of an item doubles with its failures** up to the maximum. -/
theorem wait_run [EquivBEq α] {base max : Duration} (hmax : max.nanos ≤ Duration.longest.nanos)
    (cs : List (Call α)) (x : α) :
    ((machine α).run (start base max) cs).wait x = pause base max (Call.failures x cs) := by
  obtain ⟨hbase, hmax'⟩ := bounds_run (start base max) cs
  unfold wait
  rw [delay_eq_pause (hmax' ▸ hmax), hbase, hmax', count_run]
  exact pause_ceiling base max (Call.failures x cs)

/-! ## Other items -/

/-- **Alike** with regard to an item: the same bounds, and the same count of it. -/
structure Alike (x : α) (b b' : Backoff α) : Prop where
  base : b.base = b'.base
  max : b.max = b'.max
  count : b.count x = b'.count x

namespace Alike

variable [EquivBEq α] {x : α} {b b' : Backoff α}

/-- A call about the item is answered the same, and leaves both alike. -/
theorem call (h : Alike x b b') {c : Call α} (hc : c.isAbout x = true) :
    b.answer c = b'.answer c ∧ Alike x (b.next c) (b'.next c) := by
  have hdelay (n : Nat) : b.delay n = b'.delay n := by
    unfold delay
    rw [h.base, h.max]
  have hown {y : α} (hy : (x == y) = true) : b.count y = b'.count y := by
    rw [← b.count_congr hy, ← b'.count_congr hy, h.count]
  cases c with
  | wait y =>
    have hy := hown hc
    refine ⟨congrArg Answer.wait ?_, h.base, h.max, ?_⟩
    · show b.delay (b.count y) = b'.delay (b'.count y)
      rw [hy, hdelay]
    · show (b.record y).count x = (b'.record y).count x
      rw [count_record, count_record, hy, h.count]
  | count y => exact ⟨congrArg Answer.count (hown hc), h⟩
  | forget y =>
    refine ⟨rfl, h.base, h.max, ?_⟩
    show (b.forget y).count x = (b'.forget y).count x
    rw [count_forget, count_forget, h.count]

/-- A call about another item makes no difference. -/
theorem other (h : Alike x b b') {c : Call α} (hc : c.isAbout x = false) : Alike x (b.next c) b' := by
  cases c with
  | wait y =>
    refine ⟨h.base, h.max, ?_⟩
    have hxy : ¬(x == y) = true := Bool.eq_false_iff.mp hc
    show (b.record y).count x = _
    rw [count_record, if_neg hxy, h.count]
  | count y => exact h
  | forget y =>
    refine ⟨h.base, h.max, ?_⟩
    have hxy : ¬(x == y) = true := Bool.eq_false_iff.mp hc
    show (b.forget y).count x = _
    rw [count_forget, if_neg hxy, h.count]

/-- What is answered about the item is answered as if all other calls had not been made. -/
theorem history (h : Alike x b b') (cs : List (Call α)) :
    (b.history cs).filter (fun p => p.1.isAbout x) = b'.history (cs.filter (Call.isAbout x)) := by
  induction cs generalizing b b' with
  | nil => rfl
  | cons c cs ih =>
    show ((c, b.answer c) :: (b.next c).history cs).filter _ = _
    cases hc : c.isAbout x with
    | true =>
      obtain ⟨hanswer, hnext⟩ := h.call hc
      rw [List.filter_cons_of_pos (by exact hc), List.filter_cons_of_pos hc, ih hnext, hanswer]
      rfl
    | false =>
      rw [List.filter_cons_of_neg (by simp [hc]), List.filter_cons_of_neg (by simp [hc])]
      exact ih (h.other hc)

end Alike

/-! ## Whole runs -/

/-- **Doubling**: what a limiter answers after a list of calls. -/
structure Doubling (base max : Duration) (cs : List (Call α)) : Prop where
  /-- The count is the number of failures since the item was last forgotten, up to the largest of 32 bits. -/
  counted : ∀ x, ((machine α).run (start base max) cs).answer (.count x) =
    .count (min (Call.failures x cs) (2 ^ 32 - 1))
  /-- The wait is the base, doubled once for every failure but not more than 31 times, or the maximum. -/
  waits : ∀ x, ((machine α).run (start base max) cs).answer (.wait x) =
    .wait ⟨min max.nanos (base.nanos * 2 ^ min (Call.failures x cs) 31)⟩
  /-- The wait does not get shorter until the item is forgotten. -/
  grows : ∀ x ds, (∀ c ∈ ds, c.forgets x = false) →
    (((machine α).run (start base max) cs).wait x).nanos ≤
      (((machine α).run (start base max) (cs ++ ds)).wait x).nanos
  bounded : ∀ x, (((machine α).run (start base max) cs).wait x).nanos ≤ max.nanos
  /-- What is answered about an item is answered as if no call about another item had been made. -/
  apart : ∀ x, ((start base max).history cs).filter (fun p => p.1.isAbout x) =
    (start base max).history (cs.filter (Call.isAbout x))

/-- **Doubling waits.** Whatever calls a limiter has answered, in whatever order and about whatever items,
it counts the failures of an item since that was last forgotten, and the wait doubles with them. -/
theorem run_doubles [EquivBEq α] (base max : Duration) (hmax : max.nanos ≤ Duration.longest.nanos)
    (cs : List (Call α)) : Doubling base max cs where
  counted x := by
    show Answer.count (((machine α).run (start base max) cs).count x) = _
    rw [count_run, Nat.min_comm]
    rfl
  waits x := by
    show Answer.wait (((machine α).run (start base max) cs).wait x) = _
    rw [wait_run hmax]
    rfl
  grows x ds hkept := by
    rw [wait_run hmax, wait_run hmax]
    exact pause_mono base max (Call.failures_le_append x cs hkept)
  bounded x := by
    rw [wait_run hmax]
    exact Nat.min_le_left _ _
  apart x := Alike.history ⟨rfl, rfl, rfl⟩ cs

/-- From a base of 2 ^ 40 s the wait would be too long for a span after 24 failures. Item 1 is forgotten
in between, item 2 is not. -/
theorem run_doubles_overflowing :
    Duration.longest.nanos ≤ Duration.longest.nanos ∧
      Doubling (.ofSecs (2 ^ 40)) Duration.longest
        (List.replicate 24 (.wait 1) ++ [.wait 2, .count 1, .forget 1, .wait 1, .wait 2]) :=
  ⟨Nat.le_refl _, run_doubles (.ofSecs (2 ^ 40)) Duration.longest (Nat.le_refl _) _⟩

end Backoff

/-! ## The limiter of a queue -/

namespace WorkQueue

variable {α : Type} [BEq α]

/-- The call on its limiter that a move of a queue makes. -/
def limiterCall? : Move α → Option (Backoff.Call α)
  | .addRateLimited x => some (.wait x)
  | .recordFailure x => some (.wait x)
  | .forget x => some (.forget x)
  | _ => none

/-- **The limiter of a queue** is called by the moves of the queue, and is changed by nothing else. -/
theorem backoff_run (s : Floor α) (ms : List (Move α)) :
    ((Floor.machine α).run s ms).queue.backoff =
      (Backoff.machine α).run s.queue.backoff (ms.filterMap limiterCall?) := by
  induction ms generalizing s with
  | nil => rfl
  | cons m ms ih =>
    rw [Machine.run_cons, ih]
    show (Backoff.machine α).run (s.next m).queue.backoff _ = _
    cases m with
    | addRateLimited x =>
      rw [show (s.next (.addRateLimited x)).queue.backoff = s.queue.backoff.record x from
        backoff_addAfter (s.queue.recordFailure x) x _]
      rfl
    | recordFailure x => rfl
    | forget x => rfl
    | add x => rw [show (s.next (.add x)).queue.backoff = s.queue.backoff from backoff_add _ x]; rfl
    | addAfter x d =>
      rw [show (s.next (.addAfter x d)).queue.backoff = s.queue.backoff from backoff_addAfter _ x d]
      rfl
    | land x => rw [show (s.next (.land x)).queue.backoff = s.queue.backoff from backoff_land _ x]; rfl
    | take => rw [show (s.next .take).queue.backoff = s.queue.backoff from backoff_take _]; rfl
    | done x => rfl
    | shutDown => rfl

end WorkQueue

end BorderSync
