/-
# BorderSync.Proofs.Crew.Labour -- how much work is left after a shutdown

When a queue is shut down, what is left to do is bounded: delayed adds that are to land, items that wait,
what workers have in hand, the workers themselves and the phases of the run. **Labour** weighs all this
with one number, which every piece of work lowers. When nobody can do anything any more, the run has ended.
-/
import BorderSync.Proofs.Crew.Shift

namespace BorderSync

open WorkQueue (Crew Floor)

namespace Table

variable {κ ν : Type}

/-- The weight of all values. -/
def weight (w : ν → Nat) (t : Table κ ν) : Nat :=
  t.entries.foldr (fun e n => w e.2 + n) 0

theorem weight_cons (w : ν → Nat) (e : κ × ν) (rest : List (κ × ν)) :
    (⟨e :: rest⟩ : Table κ ν).weight w = w e.2 + (⟨rest⟩ : Table κ ν).weight w :=
  rfl

variable [BEq κ]

theorem weight_insert (w : ν → Nat) (t : Table κ ν) (k : κ) (v : ν) :
    (t.insert k v).weight w = w v + (t.erase k).weight w :=
  rfl

theorem erase_cons (e : κ × ν) (rest : List (κ × ν)) (k : κ) :
    (⟨e :: rest⟩ : Table κ ν).erase k =
      if e.1 == k then (⟨rest⟩ : Table κ ν).erase k else ⟨e :: ((⟨rest⟩ : Table κ ν).erase k).entries⟩ := by
  unfold erase
  by_cases hk : e.1 == k <;> simp [hk]

theorem weight_erase_le (w : ν → Nat) (t : Table κ ν) (k : κ) : (t.erase k).weight w ≤ t.weight w := by
  obtain ⟨entries⟩ := t
  induction entries with
  | nil => exact Nat.le_refl _
  | cons e rest ih =>
    rw [erase_cons, weight_cons]
    split
    · exact Nat.le_trans ih (Nat.le_add_left _ _)
    · exact Nat.add_le_add_left ih _

/-- Taking out a key takes out the weight of its value. -/
theorem weight_erase [EquivBEq κ] (w : ν → Nat) {t : Table κ ν} {k : κ} {v : ν}
    (h : t.get? k = some v) : (t.erase k).weight w + w v ≤ t.weight w := by
  obtain ⟨entries⟩ := t
  unfold get? at h
  induction entries with
  | nil => exact absurd h (by simp)
  | cons e rest ih =>
    rw [List.lookup_cons] at h
    rw [erase_cons, weight_cons]
    by_cases hk : k == e.1
    · rw [hk] at h
      obtain rfl := Option.some.inj h
      rw [if_pos (BEq.symm hk), Nat.add_comm]
      exact Nat.add_le_add_left (weight_erase_le w _ k) _
    · rw [Bool.eq_false_iff.mpr hk] at h
      rw [if_neg fun hk' => hk (BEq.symm hk')]
      have hrest := ih h
      show w e.2 + ((⟨rest⟩ : Table κ ν).erase k).weight w + w v ≤ _
      omega

end Table

/-- What is left of a run in this phase. -/
def Phase.rest : Phase → Nat
  | .running => 3
  | .draining => 2
  | .joining => 1
  | .ended => 0

namespace Shift

variable {α σ : Type} [BEq α]

/-- **Labour** that is left, with a weight for every stage. -/
def labour (w : σ → Nat) (s : Shift α σ) : Nat :=
  s.crew.free + 6 * s.crew.floor.coming.length + 5 * s.queue.dirty.length + s.desks.weight w
    + s.phase.rest

variable {n : Nat} {s : Shift α σ} {w : σ → Nat}

/-- What others do to a queue that is shut down leaves no more and no less to do. -/
theorem labour_use (hclosed : s.queue.closed = true) {m : WorkQueue.Move α} (hm : isUse m = true)
    (hland : ∀ x, m ≠ .land x) : (s.use m).labour w = s.labour w := by
  have houtside : Crew.isOutside m = true := by
    cases m with
    | take => exact hm
    | done x => exact hm
    | _ => rfl
  obtain ⟨b, hb⟩ := Crew.next_of_closed hclosed houtside hland
  show _ + 6 * (s.crew.floor.next m).coming.length + 5 * (s.crew.floor.next m).queue.dirty.length
    + _ + _ = _
  rw [hb]
  rfl

omit [BEq α] in
/-- A run that goes on to a later phase has less to do. -/
theorem labour_phase {p : Phase} (h : p.rest < s.phase.rest) :
    ({ s with phase := p } : Shift α σ).labour w < s.labour w :=
  Nat.add_lt_add_left h _

/-- A worker that gets nothing changes nothing. -/
theorem ask_of_notYet (hhand : s.queue.hand = .notYet) (fresh : σ) : s.ask fresh = s := by
  have hempty : s.queue.waiting = [] := by
    cases hw : s.queue.waiting with
    | nil => rfl
    | cons x rest =>
      rw [(s.queue.hand_eq_item_iff x).mpr ⟨rest, hw⟩] at hhand
      exact absurd hhand (by simp)
  rw [ask_of_empty hempty]
  unfold Crew.ask
  rw [hhand]

/-- When a run has ended, nobody asks. -/
theorem Sound.free_of_ended (h : s.Sound n) (hended : s.phase = .ended) : s.crew.free = 0 := by
  have hcount := h.crew.count
  have hgone := h.gone hended
  omega

variable [EquivBEq α]

theorem labour_land {x : α} (hx : s.crew.floor.coming.contains x = true) :
    (s.use (.land x)).labour w < s.labour w := by
  have hcoming : (s.crew.floor.coming.eraseP (· == x)).length + 1 = s.crew.floor.coming.length := by
    simpa using countP_eraseP (p := fun _ => true) (fun _ _ _ => rfl) hx
  have hdirty : (s.queue.land x).dirty.length ≤ s.queue.dirty.length + 1 := by
    unfold WorkQueue.land WorkQueue.push
    split
    · exact Nat.le_succ _
    · simp
  show s.crew.free + 6 * (s.crew.floor.coming.eraseP (· == x)).length + 5 * (s.queue.land x).dirty.length
    + s.desks.weight w + s.phase.rest < _
  unfold labour
  omega

/-- A worker that gets an item or leaves has done something. -/
theorem labour_ask (h : s.Sound n) (hfree : 0 < s.crew.free) {fresh : σ} (hfresh : w fresh ≤ 5)
    (hhand : s.queue.hand ≠ .notYet) : (s.ask fresh).labour w < s.labour w := by
  cases hw : s.queue.waiting with
  | cons x rest =>
    obtain ⟨hdirty, -⟩ := h.crew.floor.queue.of_first hw
    have hlength : s.queue.take.dirty.length + 1 = s.queue.dirty.length := by
      rw [WorkQueue.dirty_take hw, h.crew.floor.queue.dirty_once.without_eq_eraseP]
      simpa using countP_eraseP (p := fun _ => true) (fun _ _ _ => rfl) hdirty
    have hweight := Table.weight_erase_le w s.desks x
    rw [ask_of_waiting hw]
    show s.crew.free - 1 + 6 * s.crew.floor.coming.length + 5 * s.queue.take.dirty.length
      + (s.desks.insert x fresh).weight w + s.phase.rest < _
    rw [Table.weight_insert]
    unfold labour
    omega
  | nil =>
    have hmore : s.queue.closed = true ∧ s.queue.delayed = 0 := by
      rw [WorkQueue.hand_of_empty hw] at hhand
      by_cases hmore : (s.queue.closed && s.queue.delayed == 0) = true
      · simpa using hmore
      · rw [if_neg hmore] at hhand
        exact absurd rfl hhand
    rw [ask_of_empty hw, Crew.ask_of_finished hw hmore.1 hmore.2]
    show s.crew.free - 1 + 6 * s.crew.floor.coming.length + 5 * s.queue.dirty.length
      + s.desks.weight w + s.phase.rest < _
    unfold labour
    omega

theorem labour_turn {x : α} {old : σ} (hstage : s.desks.get? x = some old) (stage : σ) :
    (s.turn x stage).labour w + w old ≤ s.labour w + w stage := by
  have hweight := Table.weight_erase w hstage
  show s.crew.free + 6 * s.crew.floor.coming.length + 5 * s.queue.dirty.length
    + (s.desks.insert x stage).weight w + s.phase.rest + w old ≤ _
  rw [Table.weight_insert]
  unfold labour
  omega

theorem labour_done {x : α} {old : σ} (hstage : s.desks.get? x = some old) :
    (s.done x).labour w + w old ≤ s.labour w + 1 := by
  have hweight := Table.weight_erase w hstage
  show s.crew.free + 1 + 6 * s.crew.floor.coming.length + 5 * s.queue.dirty.length
    + (s.desks.erase x).weight w + s.phase.rest + w old ≤ _
  unfold labour
  omega

/-! ## When nothing can be done -/

/-- **A run that was told to stop has ended when nothing can be done**: nothing lands, nobody has anything
in hand, nobody who asks is told anything, and the run itself does not go on. -/
theorem Sound.ended_of_quiet (h : s.Sound n) (hn : 0 < n) (hphase : s.phase ≠ .running)
    (hcoming : s.crew.floor.coming = []) (hhands : s.crew.floor.hands = [])
    (hask : 0 < s.crew.free → s.queue.hand = .notYet)
    (hdrain : ¬(s.phase = .draining ∧ s.queue.isIdle = true))
    (hjoin : ¬(s.phase = .joining ∧ s.crew.gone = n)) : s.phase = .ended := by
  have hclosed := h.closed_iff.mpr hphase
  have hcount := h.crew.count
  rw [hhands, List.length_nil, Nat.add_zero] at hcount
  have hdelayed : s.queue.delayed = 0 := by
    rw [h.crew.floor.delayed, hcoming]
    rfl
  have hwaiting : s.queue.waiting = [] := by
    cases hw : s.queue.waiting with
    | nil => rfl
    | cons x rest =>
      -- nobody asks, so that all have left, and then nothing waits
      have hfree : s.crew.free = 0 := by
        refine Nat.eq_zero_of_not_pos fun hpos => ?_
        have hhand := hask hpos
        rw [(s.queue.hand_eq_item_iff x).mpr ⟨rest, hw⟩] at hhand
        exact absurd hhand (by simp)
      exact absurd (hw.symm.trans (h.crew.emptied (by omega) (by omega))) (by simp)
  have hprocessing : s.queue.processing = [] := by
    refine List.eq_nil_iff_forall_not_mem.mpr fun x hx => ?_
    have hhand := h.crew.floor.in_hand x
    rw [hhands, List.contains_iff_exists_mem_beq.mpr ⟨x, hx, BEq.rfl⟩] at hhand
    exact absurd hhand (by simp)
  have hidle : s.queue.isIdle = true :=
    (WorkQueue.isIdle_iff _).mpr ⟨hwaiting, hprocessing, hdelayed⟩
  have hfree : s.crew.free = 0 := by
    refine Nat.eq_zero_of_not_pos fun hpos => ?_
    have hhand := hask hpos
    rw [WorkQueue.hand_of_empty hwaiting, hclosed, hdelayed] at hhand
    exact absurd hhand (by simp)
  cases hcase : s.phase with
  | running => exact absurd hcase hphase
  | draining => exact absurd ⟨hcase, hidle⟩ hdrain
  | joining => exact absurd ⟨hcase, by omega⟩ hjoin
  | ended => rfl

end Shift

end BorderSync
