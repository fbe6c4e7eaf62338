/-
# BorderSync.Proofs.Crew.Shift -- a run of workers from its start to its end

A run starts its workers and lets them work until it is told to stop. Then it shuts the queue down, waits
until the queue is idle, waits until all workers have left, and ends. Meanwhile every worker with an item
in hand is at some stage of handling it; which stages there are, and what leads from one to the next, is
for the user of a shift to say.
-/
import BorderSync.Proofs.Crew.Basic
import BorderSync.Table

namespace BorderSync

open WorkQueue (Crew Floor)

/-- How far a run has come. -/
inductive Phase where
  | running
  /-- The queue is shut down, and is to become idle. -/
  | draining
  /-- The workers are to leave. -/
  | joining
  | ended
  deriving DecidableEq, Repr

/-- **Shift**: a crew, the stage of what each worker has in hand, and how far the run has come. -/
structure Shift (α σ : Type) where
  crew : Crew α
  desks : Table α σ := {}
  phase : Phase := .running

namespace Shift

variable {α σ : Type} [BEq α]

/-- The queue of a shift. -/
abbrev queue (s : Shift α σ) : WorkQueue α :=
  s.crew.floor.queue

/-- `n` workers at a new queue. -/
def start (name : String) (base max : Duration) (n : Nat) : Shift α σ :=
  { crew := .start name base max n }

/-- What may be done to the queue besides taking, reporting as done and shutting down. -/
def isUse : WorkQueue.Move α → Bool
  | .take => false
  | .done _ => false
  | .shutDown => false
  | _ => true

/-- What is brought to the queue, for now or for later. -/
def brings? : WorkQueue.Move α → Option α
  | .add x => some x
  | .addAfter x _ => some x
  | .addRateLimited x => some x
  | _ => none

/-- Something is done to the queue. -/
def use (s : Shift α σ) (m : WorkQueue.Move α) : Shift α σ :=
  { s with crew := s.crew.next (.outside m) }

/-- A worker asks for an item, and begins with it. -/
def ask (s : Shift α σ) (fresh : σ) : Shift α σ :=
  { s with
    crew := s.crew.ask
    desks := match s.queue.hand with
      | .item x => s.desks.insert x fresh
      | _ => s.desks }

/-- What a worker has in hand goes on to another stage. -/
def turn (s : Shift α σ) (x : α) (stage : σ) : Shift α σ :=
  { s with desks := s.desks.insert x stage }

/-- A worker is done with its item. -/
def done (s : Shift α σ) (x : α) : Shift α σ :=
  { s with crew := s.crew.next (.done x), desks := s.desks.erase x }

/-- The run is told to stop. -/
def close (s : Shift α σ) : Shift α σ :=
  { s with crew := s.crew.next (.outside .shutDown), phase := .draining }

/-- The queue is idle. -/
def drained (s : Shift α σ) : Shift α σ :=
  { s with phase := .joining }

/-- All workers have left. -/
def join (s : Shift α σ) : Shift α σ :=
  { s with phase := .ended }

/-! ## Asking -/

theorem ask_of_waiting {s : Shift α σ} {x : α} {rest : List α} (h : s.queue.waiting = x :: rest)
    (fresh : σ) : s.ask fresh = { s with
      crew := { s.crew with floor := s.crew.floor.take, free := s.crew.free - 1 }
      desks := s.desks.insert x fresh } := by
  unfold ask
  rw [Crew.ask_of_waiting h, (s.queue.hand_eq_item_iff x).mpr ⟨rest, h⟩]

theorem ask_of_empty {s : Shift α σ} (h : s.queue.waiting = []) (fresh : σ) :
    s.ask fresh = { s with crew := s.crew.ask } := by
  unfold ask
  rw [WorkQueue.hand_of_empty h]
  cases s.queue.closed && s.queue.delayed == 0 <;> rfl

/-- Whatever a worker gets, the queue is as after taking. -/
theorem queue_ask (s : Shift α σ) (fresh : σ) : (s.ask fresh).queue = s.queue.take :=
  congrArg Floor.queue s.crew.floor_ask

/-- What a worker has in hand keeps its desk when it goes on to another stage. -/
theorem isSome_insert [EquivBEq α] {desks : Table α σ} {x : α} {old : σ} (h : desks.get? x = some old)
    (stage : σ) (y : α) : ((desks.insert x stage).get? y).isSome = (desks.get? y).isSome := by
  rw [Table.get?_insert]
  by_cases hy : y == x
  · rw [if_pos hy, desks.get?_congr hy, h]
    rfl
  · rw [if_neg hy]

/-! ## What holds at every moment -/

/-- **Sound**, for a shift with `n` workers: exactly what is in hand has a stage, the queue is open while
the run is not told to stop, it is idle from the end of the drain on, and all have left at the end. -/
structure Sound (n : Nat) (s : Shift α σ) : Prop where
  crew : s.crew.Sound n
  staffed : ∀ x, (s.desks.get? x).isSome = s.crew.floor.hands.contains x
  closed_iff : s.queue.closed = true ↔ s.phase ≠ .running
  idle : s.phase = .joining ∨ s.phase = .ended → s.queue.isIdle = true
  gone : s.phase = .ended → s.crew.gone = n

namespace Sound

variable {n : Nat} {s : Shift α σ}

/-- What has a stage is in hand. -/
theorem in_hand (h : s.Sound n) {x : α} {stage : σ} (hstage : s.desks.get? x = some stage) :
    s.crew.floor.hands.contains x = true := by
  rw [← h.staffed x, hstage]
  rfl

/-- Before the run is told to stop the queue is open. -/
theorem isOpen (h : s.Sound n) (hphase : s.phase = .running) : s.queue.closed = false :=
  Bool.eq_false_iff.mpr fun hclosed => h.closed_iff.mp hclosed hphase

theorem drained (h : s.Sound n) (hphase : s.phase = .draining) (hidle : s.queue.isIdle = true) :
    s.drained.Sound n where
  crew := h.crew
  staffed := h.staffed
  closed_iff := ⟨fun _ => by simp [Shift.drained], fun _ => h.closed_iff.mpr (by simp [hphase])⟩
  idle _ := hidle
  gone hended := absurd hended (by simp [Shift.drained])

theorem join (h : s.Sound n) (hphase : s.phase = .joining) (hgone : s.crew.gone = n) :
    s.join.Sound n where
  crew := h.crew
  staffed := h.staffed
  closed_iff := ⟨fun _ => by simp [Shift.join], fun _ => h.closed_iff.mpr (by simp [hphase])⟩
  idle _ := h.idle (.inl hphase)
  gone _ := hgone

variable [EquivBEq α]

/-- What is about to be handed out has no stage. -/
theorem not_in_hand (h : s.Sound n) {x : α} {rest : List α} (hw : s.queue.waiting = x :: rest) :
    s.desks.get? x = none := by
  have hhand : s.crew.floor.hands.contains x = false := by
    rw [← h.crew.floor.in_hand x]
    exact (h.crew.floor.queue.of_first hw).2
  rw [← h.staffed x] at hhand
  exact Option.isSome_eq_false_iff.mp hhand |> Option.isNone_iff_eq_none.mp

/-- In an idle queue nothing is under way, and nobody has anything in hand. -/
theorem of_idle (h : s.Sound n) (hidle : s.queue.isIdle = true) :
    s.crew.floor.coming = [] ∧ s.crew.floor.hands = [] := by
  obtain ⟨-, -, hdelayed⟩ := (WorkQueue.isIdle_iff _).mp hidle
  refine ⟨List.length_eq_zero_iff.mp (h.crew.floor.delayed ▸ hdelayed), ?_⟩
  have hhands := (h.crew.floor.of_isIdle (p := fun _ => false) hidle).2
  refine List.eq_nil_iff_forall_not_mem.mpr fun x hx => ?_
  have hx' := hhands x
  rw [List.contains_iff_exists_mem_beq.mpr ⟨x, hx, BEq.rfl⟩] at hx'
  exact absurd hx' (by simp)

/-- In an idle queue nothing is at any stage. -/
theorem stage_of_idle (h : s.Sound n) (hidle : s.queue.isIdle = true) (x : α) :
    s.desks.get? x = none := by
  have hstaffed := h.staffed x
  rw [(h.of_idle hidle).2] at hstaffed
  exact Option.isNone_iff_eq_none.mp (Option.isSome_eq_false_iff.mp hstaffed)

theorem start (name : String) (base max : Duration) (n : Nat) :
    (Shift.start name base max n : Shift α σ).Sound n where
  crew := .start name base max n
  staffed _ := rfl
  closed_iff := ⟨fun h => absurd h Bool.false_ne_true, fun h => absurd rfl h⟩
  idle h := absurd h (by simp [Shift.start])
  gone h := absurd h (by simp [Shift.start])

theorem use (h : s.Sound n) {m : WorkQueue.Move α} (hm : isUse m = true)
    (ha : s.crew.floor.allows m = true) : (s.use m).Sound n := by
  have houtside : Crew.isOutside m = true := by
    cases m with
    | take => exact hm
    | done x => exact hm
    | _ => rfl
  have hclosed : (s.use m).queue.closed = s.queue.closed := by
    cases m with
    | add x => exact WorkQueue.closed_add _ x
    | addAfter x d => exact WorkQueue.closed_addAfter _ x d
    | addRateLimited x => exact WorkQueue.closed_addAfter _ x _
    | recordFailure x => rfl
    | forget x => rfl
    | land x => exact WorkQueue.closed_land _ x
    | take => exact absurd hm Bool.false_ne_true
    | done x => exact absurd hm Bool.false_ne_true
    | shutDown => exact absurd hm Bool.false_ne_true
  have hhands : (s.use m).crew.floor.hands = s.crew.floor.hands := by
    cases m with
    | take => exact absurd hm Bool.false_ne_true
    | done x => exact absurd hm Bool.false_ne_true
    | _ => rfl
  refine ⟨h.crew.outside houtside ha, ?_, ?_, ?_, h.gone⟩
  · intro x
    rw [hhands]
    exact h.staffed x
  · rw [hclosed]
    exact h.closed_iff
  · intro hphase
    have hidle := h.idle hphase
    have hshut : s.queue.closed = true := by
      refine h.closed_iff.mpr fun hrunning => ?_
      rcases hphase with hphase | hphase <;> exact absurd (hphase.symm.trans hrunning) (by simp)
    -- nothing is under way, so nothing lands
    have hland : ∀ x, m ≠ .land x := by
      rintro x rfl
      rw [show s.crew.floor.allows (.land x) = s.crew.floor.coming.contains x from rfl,
        (h.of_idle hidle).1] at ha
      exact absurd ha (by simp)
    obtain ⟨b, hb⟩ := Crew.next_of_closed hshut houtside hland
    show (s.crew.floor.next m).queue.isIdle = true
    rw [hb]
    exact hidle

theorem ask (h : s.Sound n) (hfree : 0 < s.crew.free) (fresh : σ) : (s.ask fresh).Sound n := by
  have hcrew := h.crew.ask hfree
  cases hw : s.queue.waiting with
  | nil =>
    rw [ask_of_empty hw]
    have hfloor : s.crew.ask.floor = s.crew.floor :=
      s.crew.floor_ask.trans (Floor.take_of_empty hw)
    refine ⟨hcrew, ?_, ?_, ?_, ?_⟩
    · intro x
      show _ = s.crew.ask.floor.hands.contains x
      rw [hfloor]
      exact h.staffed x
    · show s.crew.ask.floor.queue.closed = true ↔ _
      rw [hfloor]
      exact h.closed_iff
    · intro hphase
      show s.crew.ask.floor.queue.isIdle = true
      rw [hfloor]
      exact h.idle hphase
    · -- nobody asks any more once all have left
      intro hphase
      have hcount := h.crew.count
      have hgone := h.gone hphase
      omega
  | cons x rest =>
    rw [Crew.ask_of_waiting hw] at hcrew
    rw [ask_of_waiting hw]
    refine ⟨hcrew, ?_, ?_, ?_, h.gone⟩
    · intro y
      show ((s.desks.insert x fresh).get? y).isSome = s.crew.floor.take.hands.contains y
      rw [Floor.hands_take hw, Table.get?_insert, List.contains_append, ← h.staffed y]
      by_cases hy : y == x <;> simp [hy]
    · show s.queue.take.closed = true ↔ _
      rw [WorkQueue.closed_take hw]
      exact h.closed_iff
    · intro hphase
      have hempty := ((WorkQueue.isIdle_iff _).mp (h.idle hphase)).1
      exact absurd (hempty.symm.trans hw) (by simp)

theorem turn (h : s.Sound n) {x : α} {old : σ} (hstage : s.desks.get? x = some old) (stage : σ) :
    (s.turn x stage).Sound n :=
  ⟨h.crew, fun y => (isSome_insert hstage stage y).trans (h.staffed y), h.closed_iff, h.idle, h.gone⟩

theorem done (h : s.Sound n) {x : α} {old : σ} (hstage : s.desks.get? x = some old) :
    (s.done x).Sound n := by
  have hhand := h.in_hand hstage
  refine ⟨h.crew.done hhand, ?_, h.closed_iff, ?_, h.gone⟩
  · intro y
    show ((s.desks.erase x).get? y).isSome = (s.crew.floor.hands.eraseP (· == x)).contains y
    rw [Table.get?_erase, contains_eraseP h.crew.floor.hands_once, ← h.staffed y]
    by_cases hy : y == x <;> simp [hy]
  · intro hphase
    rw [(h.of_idle (h.idle hphase)).2] at hhand
    exact absurd hhand (by simp)

theorem close (h : s.Sound n) : s.close.Sound n where
  crew := h.crew.outside rfl rfl
  staffed := h.staffed
  closed_iff := ⟨fun _ => by simp [Shift.close], fun _ => rfl⟩
  idle hphase := absurd hphase (by simp [Shift.close])
  gone hphase := absurd hphase (by simp [Shift.close])

end Sound

/-! ## What is on its way -/

section Load

variable [EquivBEq α] {s : Shift α σ} {p : α → Bool} {m : WorkQueue.Move α}

/-- What is done to the queue takes nothing away that is on its way. -/
theorem load_use (hp : Coarse p) (hm : isUse m = true) (ha : s.crew.floor.allows m = true)
    (hload : 0 < s.crew.floor.load p) : 0 < (s.use m).crew.floor.load p := by
  have hafter : ∀ (t : Floor α) (x : α) (d : Duration), 0 < t.load p → 0 < (t.addAfter x d).load p := by
    intro t x d ht
    by_cases hclosed : t.queue.closed = true
    · rwa [Crew.addAfter_of_closed hclosed]
    · exact Nat.lt_of_lt_of_le ht (Floor.load_addAfter hp t (Bool.eq_false_iff.mpr hclosed) x d).1
  cases m with
  | add x =>
    have hdirty : s.queue.dirty.countP p ≤ (s.queue.add x).dirty.countP p := by
      unfold WorkQueue.add
      split
      · exact Nat.le_refl _
      · exact (WorkQueue.countP_push hp s.queue x).1
    exact Nat.lt_of_lt_of_le hload (Nat.add_le_add_left hdirty _)
  | addAfter x d => exact hafter s.crew.floor x d hload
  | addRateLimited x => exact hafter { s.crew.floor with queue := s.queue.recordFailure x } x _ hload
  | recordFailure x => exact hload
  | forget x => exact hload
  | land x => exact (Floor.load_land hp s.crew.floor ha).2 hload
  | take => exact absurd hm Bool.false_ne_true
  | done x => exact absurd hm Bool.false_ne_true
  | shutDown => exact absurd hm Bool.false_ne_true

omit [EquivBEq α] in
/-- What is brought to an open queue is on its way. -/
theorem load_brings (hp : Coarse p) (hopen : s.queue.closed = false) {x : α} (hm : brings? m = some x)
    (hx : p x = true) : 0 < (s.use m).crew.floor.load p := by
  cases m with
  | add y =>
    obtain rfl := Option.some.inj hm
    have hdirty : 0 < (s.queue.add y).dirty.countP p := by
      rw [WorkQueue.add, hopen]
      exact (WorkQueue.countP_push hp s.queue y).2.2 hx
    exact Nat.lt_of_lt_of_le hdirty (Nat.le_add_left _ _)
  | addAfter y d =>
    obtain rfl := Option.some.inj hm
    exact (Floor.load_addAfter hp s.crew.floor hopen y d).2.2 hx
  | addRateLimited y =>
    obtain rfl := Option.some.inj hm
    exact (Floor.load_addAfter hp { s.crew.floor with queue := s.queue.recordFailure y } hopen y _).2.2 hx
  | _ => exact absurd hm (by simp [brings?])

end Load

/-! ## What is in hand -/

section Desks

variable [EquivBEq α] {n : Nat} {s : Shift α σ} {x y : α} {old kept : σ}

/-- A stage stays when a worker asks. -/
theorem stage_ask (h : s.Sound n) (hy : s.desks.get? y = some kept) (fresh : σ) :
    (s.ask fresh).desks.get? y = some kept := by
  cases hw : s.queue.waiting with
  | nil => rwa [ask_of_empty hw]
  | cons x rest =>
    rw [ask_of_waiting hw, Table.get?_insert, if_neg, hy]
    -- what is handed out has no stage yet
    intro hyx
    rw [s.desks.get?_congr hyx, h.not_in_hand hw] at hy
    exact absurd hy (by simp)

/-- What is handed out is at its first stage. -/
theorem stage_of_hand (h : s.queue.hand = .item x) (fresh : σ) :
    (s.ask fresh).desks.get? x = some fresh := by
  unfold ask
  rw [h]
  exact (Table.get?_insert _ _ _ _).trans (if_pos BEq.rfl)

/-- What goes on to a stage is at that stage. -/
theorem stage_self (s : Shift α σ) (x : α) (stage : σ) :
    (s.turn x stage).desks.get? x = some stage :=
  (Table.get?_insert _ _ _ _).trans (if_pos BEq.rfl)

/-- What is at one stage is not what is at another. -/
theorem ne_of_stage (hx : s.desks.get? x = some old) (hy : s.desks.get? y = some kept)
    (hne : kept ≠ old) : (y == x) = false := by
  refine Bool.eq_false_iff.mpr fun hyx => hne ?_
  rw [s.desks.get?_congr hyx, hx] at hy
  exact (Option.some.inj hy).symm

/-- A stage stays when what is at another goes on. -/
theorem stage_turn (hx : s.desks.get? x = some old) (hy : s.desks.get? y = some kept)
    (hne : kept ≠ old) (stage : σ) : (s.turn x stage).desks.get? y = some kept := by
  show (s.desks.insert x stage).get? y = some kept
  rw [Table.get?_insert, ne_of_stage hx hy hne, hy]
  rfl

/-- A stage stays when a worker is done with what is at another. -/
theorem stage_done (hx : s.desks.get? x = some old) (hy : s.desks.get? y = some kept)
    (hne : kept ≠ old) : (s.done x).desks.get? y = some kept := by
  show (s.desks.erase x).get? y = some kept
  rw [Table.get?_erase, ne_of_stage hx hy hne, hy]
  rfl

/-- What is on its way, or at its first stage, is so when a worker asks. -/
theorem due_ask {fresh : σ} (h : s.Sound n)
    (hx : 0 < s.crew.floor.load (x == ·) ∨ s.desks.get? x = some fresh) :
    0 < (s.ask fresh).crew.floor.load (x == ·) ∨ (s.ask fresh).desks.get? x = some fresh := by
  refine hx.elim (fun hload => ?_) fun hstage => .inr (stage_ask h hstage fresh)
  cases hw : s.queue.waiting with
  | nil =>
    rw [ask_of_empty hw]
    refine .inl ?_
    show 0 < s.crew.ask.floor.load (x == ·)
    rwa [s.crew.floor_ask, Floor.take_of_empty hw]
  | cons y rest =>
    rw [ask_of_waiting hw]
    have htake := Floor.load_take (coarse_beq x) h.crew.floor.queue hw
    by_cases hxy : x == y
    · refine .inr ?_
      rw [Table.get?_insert, if_pos hxy]
    · refine .inl ?_
      rw [Bool.eq_false_iff.mpr hxy, Bool.toNat_false, Nat.add_zero] at htake
      exact htake ▸ hload

end Desks

end Shift

end BorderSync
