/-
# BorderSync.Proofs.Queue.WindDown -- a queue that is shut down runs out of work

After the shutdown a queue takes nothing new, yet it does not only shrink: delayed adds still land, and an
item that was added again while it was in hand waits once more when it is done. So neither those that wait
nor those in hand tell how far it is to the end. What is **to go** weighs a delayed add with three, an item
that waits with two, one in hand with one, and one in hand that was added again with two more: every
landing, hand-out and done takes something away from that. When there is nothing more of the kind to do the
queue is idle, and stays so.
-/
import BorderSync.Proofs.Crew.Basic
import BorderSync.Proofs.Endless

namespace BorderSync

namespace Machine

variable {σ μ : Type} (M : Machine σ μ)

/-- How many moves of a kind a run makes. -/
def made (works : σ → μ → Bool) (s : σ) : List μ → Nat
  | [] => 0
  | m :: ms => (works s m).toNat + made works (M.next s m) ms

/-- **A rank bounds the work** of every run, if each move of a kind lowers it and none raises it. -/
theorem rank_add_made {P : σ → Prop} {works : σ → μ → Bool} (rank : σ → Nat)
    (keeps : ∀ s m, P s → M.allows s m = true → P (M.next s m))
    (step : ∀ s m, P s → M.allows s m = true → rank (M.next s m) + (works s m).toNat ≤ rank s)
    {s : σ} (hs : P s) {ms : List μ} (hl : M.legal s ms = true) :
    rank (M.run s ms) + M.made works s ms ≤ rank s := by
  induction ms generalizing s with
  | nil => exact Nat.le_refl _
  | cons m ms ih =>
    obtain ⟨ha, hl⟩ := (M.legal_cons s m ms).mp hl
    have hrest := ih (keeps s m hs ha) hl
    have hfirst := step s m hs ha
    rw [run_cons, made]
    omega

end Machine

namespace WorkQueue

variable {α : Type} [BEq α]

/-! ## What is to go -/

/-- Number of items that are in hand and were added again. -/
def again (q : WorkQueue α) : Nat :=
  q.dirty.countP fun y => q.processing.contains y

/-- **To go**: what is left to do at a queue that takes nothing new. -/
def toGo (q : WorkQueue α) : Nat :=
  3 * q.delayed + 2 * q.waiting.length + q.processing.length + 2 * q.again

/-- A delayed add that lands becomes an item that waits, or one that waits for the end of its hand-out, or
vanishes in an equal one. -/
theorem toGo_land {q : WorkQueue α} (hdelayed : 0 < q.delayed) (x : α) : (q.land x).toGo < q.toGo := by
  unfold land push
  split
  · -- an equal item is dirty already, so that only the delayed add goes
    show 3 * (q.delayed - 1) + 2 * q.waiting.length + q.processing.length + 2 * q.again < q.toGo
    unfold toGo
    omega
  · -- three go, and two come: it waits, or it is in hand and was added again
    have hagain : (q.dirty ++ [x]).countP (fun y => q.processing.contains y)
        = q.again + (q.processing.contains x).toNat := by
      rw [List.countP_append, List.countP_singleton]
      cases q.processing.contains x <;> rfl
    show 3 * (q.delayed - 1) + 2 * (if q.processing.contains x then q.waiting else q.waiting ++ [x]).length
      + q.processing.length + 2 * (q.dirty ++ [x]).countP (fun y => q.processing.contains y) < q.toGo
    rw [hagain]
    unfold toGo
    cases q.processing.contains x <;> simp <;> omega

variable [EquivBEq α]

/-- Being in a list does not tell equal items apart. -/
theorem coarse_contains (xs : List α) : Coarse fun y => xs.contains y :=
  fun _ _ h => List.contains_congr h

/-- What is handed out was not in hand, and so it was not added again. -/
theorem again_take {q : WorkQueue α} (h : q.Sound) {x : α} {rest : List α} (hw : q.waiting = x :: rest) :
    q.take.again = q.again := by
  obtain ⟨-, hprocessing⟩ := h.of_first hw
  unfold again
  rw [dirty_take hw, processing_take hw, if_neg (Bool.eq_false_iff.mp hprocessing), List.countP_filter]
  refine List.countP_congr fun y _ => ?_
  rw [List.contains_append, List.contains_cons, List.contains_nil, Bool.or_false]
  by_cases hy : y == x
  · rw [List.contains_congr hy, hprocessing, hy]
    simp
  · simp [hy]

theorem toGo_take {q : WorkQueue α} (h : q.Sound) {x : α} {rest : List α} (hw : q.waiting = x :: rest) :
    q.take.toGo + 1 = q.toGo := by
  obtain ⟨-, hprocessing⟩ := h.of_first hw
  unfold toGo
  rw [again_take h hw, delayed_take hw, waiting_take hw, processing_take hw,
    if_neg (Bool.eq_false_iff.mp hprocessing), hw, List.length_append, List.length_singleton, List.length_cons]
  omega

/-- What is done and was added again is not in hand any more. -/
theorem again_done {q : WorkQueue α} (h : q.Sound) {x : α} (hx : q.processing.contains x = true) :
    (q.done x).again + (q.dirty.contains x).toNat = q.again := by
  have hothers : (q.done x).again
      = (q.dirty.filter fun y => !(y == x)).countP fun y => q.processing.contains y := by
    rw [List.countP_filter]
    refine List.countP_congr fun y _ => ?_
    show (q.processing.filter fun z => !(z == x)).contains y = true ↔ _
    rw [contains_without]
  rw [hothers, h.dirty_once.without_eq_eraseP]
  by_cases hdirty : q.dirty.contains x = true
  · have hcount := countP_eraseP (coarse_contains q.processing) hdirty
    rw [hx] at hcount
    rw [hdirty]
    exact hcount
  · have hnone : q.dirty.eraseP (· == x) = q.dirty := by
      refine List.eraseP_of_forall_not fun y hy hyx => hdirty ?_
      exact List.contains_iff_exists_mem_beq.mpr ⟨y, hy, BEq.symm hyx⟩
    rw [hnone, Bool.eq_false_iff.mpr hdirty]
    rfl

theorem toGo_done {q : WorkQueue α} (h : q.Sound) {x : α} (hx : q.processing.contains x = true) :
    (q.done x).toGo + 1 = q.toGo := by
  have hagain := again_done h hx
  have hlength : (q.processing.filter fun y => !(y == x)).length + 1 = q.processing.length := by
    rw [h.processing_once.without_eq_eraseP]
    simpa using countP_eraseP (p := fun _ => true) (fun _ _ _ => rfl) hx
  show 3 * q.delayed + 2 * (if q.dirty.contains x then q.waiting ++ [x] else q.waiting).length
    + (q.processing.filter fun y => !(y == x)).length + 2 * (q.done x).again + 1 = q.toGo
  unfold toGo
  cases hdirty : q.dirty.contains x <;> rw [hdirty] at hagain <;> simp at hagain ⊢ <;> omega

/-! ## After the shutdown -/

namespace Floor

/-- Other failures are counted; everything else is as it was. -/
def recount (s : Floor α) (b : Backoff α) : Floor α :=
  { s with queue := { s.queue with backoff := b } }

/-- A move is a landing, a hand-out or a done. -/
def winds (s : Floor α) : Move α → Bool
  | .land _ => true
  | .take => !s.queue.waiting.isEmpty
  | .done _ => true
  | _ => false

variable {s : Floor α}

omit [EquivBEq α] in
/-- No other move changes a queue that is shut down, besides its counters. -/
theorem next_of_not_winds (hclosed : s.queue.closed = true) {m : Move α} (hm : s.winds m = false) :
    ∃ b, s.next m = s.recount b := by
  cases m with
  | land x => exact absurd hm Bool.noConfusion
  | done x => exact absurd hm Bool.noConfusion
  | take => exact ⟨s.queue.backoff, take_of_empty (by simpa [winds] using hm)⟩
  | _ => exact Crew.next_of_closed hclosed rfl (fun _ => by simp)

/-- **Every landing, hand-out and done leaves less to go**, and nothing else changes what is to go. -/
theorem toGo_next (h : s.Sound) (hclosed : s.queue.closed = true) {m : Move α} (ha : s.allows m = true) :
    (s.next m).queue.toGo + (s.winds m).toNat ≤ s.queue.toGo := by
  cases hwinds : s.winds m with
  | false =>
    obtain ⟨b, hb⟩ := next_of_not_winds hclosed hwinds
    rw [hb]
    exact Nat.le_refl s.queue.toGo
  | true =>
    cases m with
    | land x =>
      have hdelayed := h.exclusive.delayed_land x ha
      exact toGo_land (by omega) x
    | take =>
      cases hw : s.queue.waiting with
      | nil => simp [winds, hw] at hwinds
      | cons x rest => exact Nat.le_of_eq (toGo_take h.queue hw)
    | done x => exact Nat.le_of_eq (toGo_done h.queue (h.in_hand x ▸ ha))
    | _ => exact absurd hwinds Bool.noConfusion

/-- **There is nothing more of the kind to do exactly when the queue is idle.** -/
theorem Sound.quiet_iff (h : s.Sound) : (machine α).Quiet winds s ↔ s.queue.isIdle = true := by
  constructor
  · intro hquiet
    have hcoming : s.coming = [] := List.eq_nil_iff_forall_not_mem.mpr fun x hx =>
      absurd (hquiet (.land x) (List.contains_iff_exists_mem_beq.mpr ⟨x, hx, BEq.rfl⟩)) Bool.noConfusion
    have hprocessing : s.queue.processing = [] := List.eq_nil_iff_forall_not_mem.mpr fun x hx => by
      have hhand := h.in_hand x
      rw [List.contains_iff_exists_mem_beq.mpr ⟨x, hx, BEq.rfl⟩] at hhand
      exact absurd (hquiet (.done x) hhand.symm) Bool.noConfusion
    have hwaiting : s.queue.waiting = [] := by simpa [winds] using hquiet .take rfl
    have hdelayed := h.delayed
    rw [hcoming] at hdelayed
    exact (isIdle_iff _).mpr ⟨hwaiting, hprocessing, hdelayed⟩
  · intro hidle m ha
    obtain ⟨hwaiting, -, hdelayed⟩ := (isIdle_iff _).mp hidle
    have hcoming : s.coming = [] := List.length_eq_zero_iff.mp (h.delayed ▸ hdelayed)
    cases m with
    | land x =>
      have hx : s.coming.contains x = true := ha
      rw [hcoming] at hx
      exact absurd hx (by simp)
    | done x =>
      have hx : s.hands.contains x = true := ha
      rw [(h.of_isIdle (p := fun _ => false) hidle).2 x] at hx
      exact absurd hx Bool.noConfusion
    | take => simp [winds, hwaiting]
    | _ => rfl

/-- **Over**: the queue is idle and shut down. -/
structure Over (s : Floor α) : Prop where
  sound : s.Sound
  closed : s.queue.closed = true
  idle : s.queue.isIdle = true

namespace Over

/-- Whatever is allowed then changes no more than counters. -/
theorem next (h : s.Over) {m : Move α} (ha : s.allows m = true) : ∃ b, s.next m = s.recount b :=
  next_of_not_winds h.closed (h.sound.quiet_iff.mpr h.idle m ha)

omit [EquivBEq α] in
theorem recount (h : s.Over) (b : Backoff α) : (s.recount b).Over where
  sound := ⟨⟨h.sound.queue.waiting_once, h.sound.queue.dirty_once, h.sound.queue.processing_once,
    h.sound.queue.waits⟩, h.sound.hands_once, h.sound.in_hand, h.sound.delayed⟩
  closed := h.closed
  idle := h.idle

omit [EquivBEq α] in
/-- Whoever asks then hears that no item will come. -/
theorem hand (h : s.Over) : s.queue.hand = .finished := by
  obtain ⟨hwaiting, -, hdelayed⟩ := (isIdle_iff _).mp h.idle
  rw [hand_of_empty hwaiting, h.closed, hdelayed]
  rfl

end Over

/-- **Winds down**: how a queue that is shut down comes to its end. -/
structure WindsDown (s : Floor α) : Prop where
  /-- Every landing, hand-out and done leaves less to go. -/
  falls : ∀ m, s.allows m = true → s.winds m = true → (s.next m).queue.toGo < s.queue.toGo
  /-- Nothing else changes the queue, besides its counters. -/
  keeps : ∀ m, s.winds m = false → ∃ b, s.next m = s.recount b
  /-- Whatever is done from now on, there are no more landings, hand-outs and dones than there is to go. -/
  bounded : ∀ ms, (machine α).legal s ms = true →
    ((machine α).run s ms).queue.toGo + (machine α).made winds s ms ≤ s.queue.toGo
  /-- None of them is possible exactly when the queue is idle. -/
  quiet_iff : (machine α).Quiet winds s ↔ s.queue.isIdle = true
  /-- An idle queue stays as it is, besides its counters, and whoever asks hears that no item will come. -/
  lasts : s.queue.isIdle = true → ∀ ms, (machine α).legal s ms = true →
    (∃ b, (machine α).run s ms = s.recount b) ∧ ((machine α).run s ms).queue.hand = .finished

theorem Over.run (h : s.Over) {ms : List (Move α)} (hl : (machine α).legal s ms = true) :
    ∃ b, (machine α).run s ms = s.recount b := by
  refine (machine α).run_keeps (P := fun t => ∃ b, t = s.recount b) ?_ ⟨s.queue.backoff, rfl⟩ hl
  rintro t m ⟨b, rfl⟩ ha
  obtain ⟨b', hb'⟩ := (h.recount b).next ha
  exact ⟨b', hb'⟩

/-- **Every queue that is shut down winds down.** -/
theorem Sound.windsDown (h : s.Sound) (hclosed : s.queue.closed = true) : s.WindsDown where
  falls m ha hwinds := by
    have hnext := toGo_next h hclosed ha
    rw [hwinds] at hnext
    exact hnext
  keeps m := next_of_not_winds hclosed
  bounded ms hl :=
    (machine α).rank_add_made (P := fun t => t.Sound ∧ t.queue.closed = true) (fun t => t.queue.toGo)
      (fun t m ht ha => ⟨ht.1.next m ha, Crew.closed_next ht.2 m⟩)
      (fun t m ht ha => toGo_next ht.1 ht.2 ha) ⟨h, hclosed⟩ hl
  quiet_iff := h.quiet_iff
  lasts hidle ms hl := by
    obtain ⟨b, hb⟩ := Over.run ⟨h, hclosed, hidle⟩ hl
    exact ⟨⟨b, hb⟩, hb ▸ (Over.recount ⟨h, hclosed, hidle⟩ b).hand⟩

end Floor

end WorkQueue

end BorderSync
