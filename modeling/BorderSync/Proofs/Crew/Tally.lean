/-
# BorderSync.Proofs.Crew.Tally -- no counter is left behind

Failures are counted and forgotten at other moments than those at which items come and go: a producer
counts before it adds, a worker counts before it adds again and forgets before it is done, and equal items
that are under way become one. All the same a counter that is not zero is always **accounted for**: a
producer is about to add its item, or the item is on its way to a worker, or a worker has it in hand and is
still to forget its failures or to add it again. This holds as long as the queue is open; a queue that is
shut down may not take the item for which a failure was counted.

What is said here is about any shift. `owes` says at which stages a worker has still to do something about
the failures of its item, and `posting` are the items that producers are about to add.
-/
import BorderSync.Proofs.Crew.Shift
import BorderSync.Proofs.Queue.Backoff

namespace BorderSync

open WorkQueue (Crew Floor)

/-! ## Counters -/

namespace Backoff

variable {α : Type}

/-- Every item that is counted has failed. -/
def Positive (b : Backoff α) : Prop :=
  ∀ e ∈ b.failures.entries, 0 < e.2

variable [BEq α]

theorem Positive.erase {b : Backoff α} (h : b.Positive) (x : α) : (b.forget x).Positive :=
  fun e he => h e (List.mem_filter.mp he).1

theorem Positive.record {b : Backoff α} (h : b.Positive) (x : α) : (b.record x).Positive := by
  intro e he
  rcases List.mem_cons.mp he with rfl | he
  · show 0 < min ceiling (b.count x + 1)
    exact Nat.lt_min.mpr ⟨by decide, Nat.succ_pos _⟩
  · exact h.erase x e he

/-- Without a counter that is not zero there is no entry at all. -/
theorem Positive.failures_eq_nil [EquivBEq α] {b : Backoff α} (h : b.Positive) (hzero : ∀ x, b.count x = 0) :
    b.failures.entries = [] := by
  cases hentries : b.failures.entries with
  | nil => rfl
  | cons e rest =>
    have hcount : b.count e.1 = e.2 := by
      rw [count, Table.get?, hentries, List.lookup_cons, BEq.rfl]
      rfl
    have hpos := h e (by rw [hentries]; exact List.mem_cons_self)
    have := hzero e.1
    omega

end Backoff

namespace WorkQueue

variable {α : Type} [BEq α]

/-- **Under way**: an item is delayed, or waits, or is in hand. -/
def Floor.Underway (s : Floor α) (x : α) : Prop :=
  s.coming.contains x = true ∨ s.queue.waiting.contains x = true ∨ s.queue.processing.contains x = true

end WorkQueue

/-! ## What counters are accounted for by -/

namespace Shift

variable {α σ : Type} [BEq α] {owes : σ → Bool} {posting : List α} {n : Nat} {s : Shift α σ} {x y : α}

/-- **Due**: an item is about to be added, or on its way, or in hand at a stage that owes something. -/
def Due (owes : σ → Bool) (posting : List α) (s : Shift α σ) (x : α) : Prop :=
  posting.contains x = true ∨ 0 < s.crew.floor.load (x == ·) ∨
    ∃ stage, s.desks.get? x = some stage ∧ owes stage = true

/-- **Tallied**: as long as the queue is open every counter is accounted for, and none is zero. -/
structure Tallied (owes : σ → Bool) (posting : List α) (s : Shift α σ) : Prop where
  due : s.queue.closed = false → ∀ x, 0 < s.queue.requeues x → s.Due owes posting x
  positive : s.queue.backoff.Positive

/-- A queue that is open after a move was open before. -/
theorem isOpen_of_use {m : WorkQueue.Move α} (h : (s.use m).queue.closed = false) : s.queue.closed = false :=
  Bool.eq_false_iff.mpr fun hclosed =>
    Bool.eq_false_iff.mp h (Crew.closed_next (s := s.crew.floor) hclosed m)

namespace Due

variable [EquivBEq α]

theorem use (h : s.Due owes posting x) {m : WorkQueue.Move α} (hm : isUse m = true)
    (ha : s.crew.floor.allows m = true) : (s.use m).Due owes posting x :=
  h.imp_right (.imp_left (load_use (coarse_beq x) hm ha))

theorem ask (h : s.Due owes posting x) (hs : s.Sound n) {fresh : σ} (hfresh : owes fresh = true) :
    (s.ask fresh).Due owes posting x := by
  rcases h with hposting | hload | ⟨stage, hstage, howes⟩
  · exact .inl hposting
  · refine .inr ((due_ask hs (.inl hload)).imp_right fun hstage => ⟨fresh, hstage, hfresh⟩)
  · exact .inr (.inr ⟨stage, stage_ask hs hstage fresh, howes⟩)

/-- What goes on to another stage owes something there, or is not the item in question. -/
theorem turn (h : s.Due owes posting x) {stage : σ} (hx : (x == y) = false ∨ owes stage = true) :
    (s.turn y stage).Due owes posting x := by
  refine h.imp_right (.imp_right ?_)
  rintro ⟨kept, hkept, howes⟩
  have hget : (s.turn y stage).desks.get? x = if x == y then some stage else s.desks.get? x :=
    Table.get?_insert s.desks y x stage
  rcases hx with hne | hstage
  · exact ⟨kept, by rw [hget, hne, hkept]; rfl, howes⟩
  · by_cases hxy : x == y
    · exact ⟨stage, by rw [hget, if_pos hxy], hstage⟩
    · exact ⟨kept, by rw [hget, if_neg hxy, hkept], howes⟩

/-- A worker is done with what owes nothing. -/
theorem done (h : s.Due owes posting x) {old : σ} (hold : s.desks.get? y = some old)
    (hsettled : owes old = false) : (s.done y).Due owes posting x := by
  refine h.imp_right (.imp_right ?_)
  rintro ⟨kept, hkept, howes⟩
  refine ⟨kept, stage_done hold hkept ?_, howes⟩
  rintro rfl
  exact Bool.eq_false_iff.mp hsettled howes

omit [EquivBEq α] in
/-- Whatever is at a stage that owes something is due. -/
theorem of_stage {stage : σ} (hstage : s.desks.get? x = some stage) (howes : owes stage = true) :
    s.Due owes posting x :=
  .inr (.inr ⟨stage, hstage, howes⟩)

omit [EquivBEq α] in
/-- What is due is about to be added, or delayed, or waits, or is in hand. -/
theorem underway (h : s.Due owes posting x) (hs : s.Sound n) :
    posting.contains x = true ∨ s.crew.floor.Underway x := by
  refine h.imp_right ?_
  rintro (hload | ⟨stage, hstage, -⟩)
  · by_cases hcoming : 0 < s.crew.floor.coming.countP (x == ·)
    · obtain ⟨z, hz, hxz⟩ := List.countP_pos_iff.mp hcoming
      exact .inl (List.contains_iff_exists_mem_beq.mpr ⟨z, hz, hxz⟩)
    · have hdirty : 0 < s.crew.floor.queue.dirty.countP (x == ·) := by
        unfold Floor.load at hload
        omega
      obtain ⟨z, hz, hxz⟩ := List.countP_pos_iff.mp hdirty
      have hcontains := List.contains_iff_exists_mem_beq.mpr ⟨z, hz, hxz⟩
      -- what is dirty waits unless it is in hand
      have hwaits := hs.crew.floor.queue.waits x
      rw [show s.crew.floor.queue.dirty.contains x = true from hcontains, Bool.true_and] at hwaits
      cases hprocessing : s.crew.floor.queue.processing.contains x with
      | true => exact .inr (.inr hprocessing)
      | false => exact .inr (.inl (hwaits.trans (by rw [hprocessing]; rfl)))
  · exact .inr (.inr ((hs.crew.floor.in_hand x).trans (hs.in_hand hstage)))

end Due

/-! ## What every step keeps -/

namespace Tallied

variable [EquivBEq α]

omit [EquivBEq α] in
theorem start (name : String) (base max : Duration) (k : Nat) :
    (Shift.start name base max k : Shift α σ).Tallied owes posting where
  due _ _ h := absurd h (Nat.lt_irrefl 0)
  positive _ h := absurd h List.not_mem_nil

/-- What leaves the counters as they are. -/
theorem use (h : s.Tallied owes posting) {m : WorkQueue.Move α} (hm : isUse m = true)
    (ha : s.crew.floor.allows m = true) (hbackoff : (s.use m).queue.backoff = s.queue.backoff) :
    (s.use m).Tallied owes posting where
  due hopen x hcount := by
    rw [WorkQueue.requeues, hbackoff] at hcount
    exact (h.due (isOpen_of_use hopen) x hcount).use hm ha
  positive := hbackoff ▸ h.positive

/-- A delayed add lands. -/
theorem land (h : s.Tallied owes posting) (hx : s.crew.floor.coming.contains x = true) :
    (s.use (.land x)).Tallied owes posting :=
  h.use rfl hx (WorkQueue.backoff_land s.queue x)

/-- An item is added whose failures are not counted. -/
theorem addAfter (h : s.Tallied owes posting) (x : α) (d : Duration) :
    (s.use (.addAfter x d)).Tallied owes posting :=
  h.use rfl rfl (WorkQueue.backoff_addAfter s.queue x d)

/-- A producer counts a failure of what it is about to add. -/
theorem rate (h : s.Tallied owes posting) (x : α) :
    (s.use (.recordFailure x)).Tallied owes (posting ++ [x]) where
  due hopen y hcount := by
    have hcount' : 0 < (s.queue.backoff.record x).count y := hcount
    rw [Backoff.count_record] at hcount'
    by_cases hyx : y == x
    · exact .inl (by simp [hyx])
    · rw [if_neg hyx] at hcount'
      exact ((h.due (isOpen_of_use hopen) y hcount').use (m := .recordFailure x) rfl rfl).imp_left
        fun hposting => by simp only [List.contains_append, hposting, Bool.true_or]
  positive := h.positive.record x

/-- A producer adds what it was about to add: an open queue takes it. -/
theorem post (h : s.Tallied owes posting) {rest : List α} (x : α) (d : Duration)
    (hrest : ∀ y, posting.contains y = true → y == x ∨ rest.contains y = true) :
    (s.use (.addAfter x d)).Tallied owes rest where
  due hopen y hcount := by
    have hopen' := isOpen_of_use hopen
    have hcount' : 0 < s.queue.requeues y := by
      rwa [WorkQueue.requeues, show (s.use (.addAfter x d)).queue.backoff = s.queue.backoff from
        WorkQueue.backoff_addAfter s.queue x d] at hcount
    rcases (h.due hopen' y hcount').use (m := .addAfter x d) rfl rfl with hposting | hdue
    · rcases hrest y hposting with hyx | hrest
      · exact .inr (.inl (load_brings (coarse_beq y) hopen' (m := .addAfter x d) rfl hyx))
      · exact .inl hrest
    · exact .inr hdue
  positive := (WorkQueue.backoff_addAfter s.queue x d).symm ▸ h.positive

theorem ask (h : s.Tallied owes posting) (hs : s.Sound n) {fresh : σ} (hfresh : owes fresh = true) :
    (s.ask fresh).Tallied owes posting where
  due hopen y hcount := by
    rw [queue_ask] at hopen hcount
    have hopen' : s.queue.closed = false := Bool.eq_false_iff.mpr fun hclosed =>
      Bool.eq_false_iff.mp hopen (Crew.closed_next (s := s.crew.floor) hclosed .take)
    refine (h.due hopen' y ?_).ask hs hfresh
    rwa [WorkQueue.requeues, WorkQueue.backoff_take] at hcount
  positive := by
    rw [queue_ask, WorkQueue.backoff_take]
    exact h.positive

/-- A worker goes on to a stage that owes something. -/
theorem turn (h : s.Tallied owes posting) {stage : σ} (hstage : owes stage = true) :
    (s.turn x stage).Tallied owes posting where
  due hopen y hcount := (h.due hopen y hcount).turn (.inr hstage)
  positive := h.positive

/-- A worker does something to the queue on account of its item and goes on. Items that are not equal to
it stay accounted for; about equal ones something is to be said. -/
theorem act (h : s.Tallied owes posting) {m : WorkQueue.Move α} (hm : isUse m = true)
    (ha : s.crew.floor.allows m = true) {stage : σ}
    (hothers : ∀ y, ¬(y == x) = true → (s.use m).queue.requeues y = s.queue.requeues y)
    (hequal : (s.use m).queue.closed = false → ∀ y, (y == x) = true → 0 < (s.use m).queue.requeues y →
      ((s.use m).turn x stage).Due owes posting y)
    (hpositive : (s.use m).queue.backoff.Positive) : ((s.use m).turn x stage).Tallied owes posting where
  due hopen y hcount := by
    by_cases hyx : y == x
    · exact hequal hopen y hyx hcount
    · have hcount' : 0 < s.queue.requeues y := hothers y hyx ▸ hcount
      have hbefore : s.Due owes posting y := h.due (isOpen_of_use hopen) y hcount'
      exact (hbefore.use hm ha).turn (.inl (Bool.eq_false_iff.mpr hyx))
  positive := hpositive

/-- A worker counts a failure of its item, and is to add it again. -/
theorem fail (h : s.Tallied owes posting) {stage : σ} (hstage : owes stage = true) :
    ((s.use (.recordFailure x)).turn x stage).Tallied owes posting := by
  refine h.act (m := .recordFailure x) rfl rfl ?_ ?_ (h.positive.record x)
  · intro y hyx
    show (s.queue.backoff.record x).count y = s.queue.backoff.count y
    rw [Backoff.count_record, if_neg hyx]
  · intro _ y hyx _
    exact .of_stage ((Table.get?_insert s.desks x y stage).trans (if_pos hyx)) hstage

/-- A worker adds its item again: an open queue takes it, and the worker owes nothing any more. -/
theorem readd (h : s.Tallied owes posting) (d : Duration) (settled : σ) :
    ((s.use (.addAfter x d)).turn x settled).Tallied owes posting := by
  have hbackoff : (s.use (.addAfter x d)).queue.backoff = s.queue.backoff :=
    WorkQueue.backoff_addAfter s.queue x d
  refine h.act (m := .addAfter x d) rfl rfl ?_ ?_ (hbackoff ▸ h.positive)
  · intro y _
    rw [WorkQueue.requeues, hbackoff, WorkQueue.requeues]
  · intro hopen y hyx _
    exact .inr (.inl (load_brings (coarse_beq y) (isOpen_of_use hopen) (m := .addAfter x d) rfl hyx))

/-- A worker forgets the failures of its item, and owes nothing any more. -/
theorem forget (h : s.Tallied owes posting) (settled : σ) :
    ((s.use (.forget x)).turn x settled).Tallied owes posting := by
  refine h.act (m := .forget x) rfl rfl ?_ ?_ (h.positive.erase x)
  · intro y hyx
    show (s.queue.backoff.forget x).count y = s.queue.backoff.count y
    rw [Backoff.count_forget, if_neg hyx]
  · intro _ y hyx hcount
    have hzero : (s.use (.forget x)).queue.requeues y = 0 :=
      (Backoff.count_forget s.queue.backoff x y).trans (if_pos hyx)
    omega

/-- A worker is done with an item for which it owes nothing. -/
theorem done (h : s.Tallied owes posting) {old : σ} (hold : s.desks.get? x = some old)
    (hsettled : owes old = false) : (s.done x).Tallied owes posting where
  due hopen y hcount := (h.due hopen y hcount).done hold hsettled
  positive := h.positive

omit [EquivBEq α] in
/-- Once the queue is shut down nothing is claimed of the counters. -/
theorem of_closed (hclosed : s.queue.closed = true) (hpositive : s.queue.backoff.Positive) :
    s.Tallied owes posting where
  due hopen := absurd (hclosed.symm.trans hopen) Bool.noConfusion
  positive := hpositive

/-- **An idle queue that is open has no counters.** -/
theorem failures_of_idle (h : s.Tallied owes []) (hs : s.Sound n) (hopen : s.queue.closed = false)
    (hidle : s.queue.isIdle = true) : s.queue.backoff.failures.entries = [] := by
  refine h.positive.failures_eq_nil fun x => Nat.eq_zero_of_not_pos fun hcount => ?_
  rcases (h.due hopen x hcount) with hposting | hload | ⟨stage, hstage, -⟩
  · exact absurd hposting (by simp)
  · rw [(hs.crew.floor.of_isIdle hidle).1] at hload
    exact absurd hload (Nat.lt_irrefl 0)
  · rw [hs.stage_of_idle hidle x] at hstage
    exact absurd hstage (by simp)

end Tallied

end Shift

end BorderSync
