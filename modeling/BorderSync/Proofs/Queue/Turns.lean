/-
# BorderSync.Proofs.Queue.Turns -- a turn is a run of steps

Where tasks take turns, each of them changes the queue, makes all its calls and goes before another one
begins, or asks, looks and waits. Such a turn is a run of the steps of its task: it leaves the queue and
its notice boards as the steps do. So what holds of tasks whose steps interleave holds of tasks that take
turns.
-/
import BorderSync.Proofs.Queue.Heard

namespace BorderSync.WorkQueue.Lobby

variable {α : Type} [BEq α] {l : Lobby α} {t : TaskId}

/-- **Turn** of a task: some run of steps leaves this queue, these notice boards, and the task at this
point. -/
def Turn (l : Lobby α) (t : TaskId) (s : SharedQueue α) (w : Option Task) : Prop :=
  ∃ ms, (machine α).legal l ms = true ∧ ((machine α).run l ms).shared = s ∧
    ((machine α).run l ms).tasks.get? t = w

namespace Turn

variable {s : SharedQueue α} {w : Option Task}

theorem refl (l : Lobby α) (t : TaskId) : Turn l t l.shared (l.tasks.get? t) :=
  ⟨[], rfl, rfl, rfl⟩

/-- A turn begins with a step. -/
theorem step {m : Move α} (ha : l.allows m = true) (h : Turn (l.next m) t s w) : Turn l t s w := by
  obtain ⟨ms, hl, hs, hw⟩ := h
  exact ⟨m :: ms, ((machine α).legal_cons l m ms).mpr ⟨ha, hl⟩, hs, hw⟩

end Turn

omit [BEq α] in
theorem shared_call (l : Lobby α) (c : Call) : (l.call c).shared = (l.shared.call c).1 := by
  cases c <;> rfl

/-- A task makes all its calls in its turn. -/
theorem turn_calls {sequel : Sequel} {cs : List Call} {s : SharedQueue α} {w : Option Task}
    (ht : l.tasks.get? t = some (.calling sequel cs))
    (h : ∀ l' : Lobby α, l'.shared = (l.shared.calls cs).1 → l'.tasks.get? t = some (.calling sequel []) →
      Turn l' t s w) : Turn l t s w := by
  induction cs generalizing l with
  | nil => exact h l rfl ht
  | cons c rest ih =>
    have hnext : l.next (.call t) = (l.call c).put t (.calling sequel rest) := by
      simp only [next, ht]
    refine .step (m := .call t) (by simp [allows, ht]) ?_
    rw [hnext]
    refine ih (get?_put _ t _) fun l' hs' ht' => h l' ?_ ht'
    rw [hs']
    show ((l.call c).shared.calls rest).1 = _
    rw [shared_call]
    rfl

/-- **Someone who changes the queue**: the change, all its calls, and no more. -/
theorem turn_use (ht : l.tasks.get? t = none) {m : WorkQueue.Move α} (ha : l.floor.allows m = true)
    (htake : m ≠ .take) :
    Turn l t (l.shared.become (l.floor.next m).queue (l.floor.queue.callsOf m)).1 none := by
  have hallows : l.allows (.use t m) = true := by
    cases m with
    | take => exact absurd rfl htake
    | _ => simp [allows, Table.contains, ht, ha]
  refine .step hallows (turn_calls (get?_put _ t _) fun l' hs' ht' => ?_)
  have hnext : l'.next (.leave t) = l'.dismiss t := by
    simp only [next, ht']
  refine .step (m := .leave t) (by simp [allows, ht']) ?_
  rw [hnext]
  exact ⟨[], rfl, hs', get?_dismiss l' t⟩

theorem turn_add (ht : l.tasks.get? t = none) (x : α) : Turn l t (l.shared.add x).1 none :=
  turn_use ht (m := .add x) rfl (by simp)

theorem turn_land (ht : l.tasks.get? t = none) {x : α} (hx : l.floor.coming.contains x = true) :
    Turn l t (l.shared.land x).1 none :=
  turn_use ht (m := .land x) hx (by simp)

theorem turn_done (ht : l.tasks.get? t = none) {x : α} (hx : l.floor.hands.contains x = true) :
    Turn l t (l.shared.done x).1 none :=
  turn_use ht (m := .done x) hx (by simp)

theorem turn_forget (ht : l.tasks.get? t = none) (x : α) : Turn l t (l.shared.forget x) none :=
  turn_use ht (m := .forget x) rfl (by simp)

/-! ## Consumers -/

omit [BEq α] in
theorem itemReady_withdraw (l : Lobby α) (t : TaskId) :
    (l.withdraw t).itemReady = if l.reached.contains t then (l.itemReady.withdraw t).callOne.1
      else l.itemReady.withdraw t := by
  unfold withdraw
  split <;> rfl

omit [BEq α] in
/-- Whether the next one is called before a consumer gives up its registration or after it, the board is
the same: a call that reaches the consumer itself is passed on. -/
theorem itemReady_withdraw_call {l' : Lobby α} (hboard : l'.itemReady = (l.call .oneConsumer).itemReady)
    (hreached : l'.reached = (l.call .oneConsumer).reached) (ht : t ∉ l.reached) :
    (l'.withdraw t).itemReady = (l.itemReady.withdraw t).callOne.1 := by
  rw [itemReady_withdraw, hboard, hreached, call_oneConsumer]
  cases hw : l.itemReady.waiters with
  | nil => simp [Notice.withdraw, Notice.callOne, hw, ht]
  | cons u rest =>
    by_cases hut : u = t
    · subst hut
      simp [Notice.withdraw, hw]
    · simp [Notice.withdraw, Notice.callOne, hw, ht, hut, Ne.symm hut]

theorem allows_ask (ht : ∀ w, l.tasks.get? t = some w → w = .parked) (hfree : t ∉ l.itemReady.waiters) :
    l.allows (.ask t) = true := by
  cases hw : l.tasks.get? t with
  | none => simp [allows, hw]
  | some w =>
    obtain rfl := ht w hw
    simpa [allows, hw] using hfree

/-- A consumer that asks and finds nothing waits; what it does then, it does from there. -/
theorem turn_ask {s : SharedQueue α} {w : Option Task} (ha : l.allows (.ask t) = true)
    (hhand : l.floor.queue.hand = .notYet)
    (h : Turn (((l.register t).put t .looking).put t .parked) t s w) : Turn l t s w := by
  have hlook : ((l.register t).put t .looking).next (.look t)
      = ((l.register t).put t .looking).put t .parked :=
    look_of_notYet (l := (l.register t).put t .looking) hhand t
  refine .step (m := .ask t) ha (.step (m := .look t) ?_ (hlook ▸ h))
  simp only [next, allows, get?_put, beq_self_eq_true]

/-- A consumer without calls to make goes. -/
theorem turn_leave (ht : l.tasks.get? t = some (.calling .withdraws [])) :
    Turn l t (l.withdraw t).shared none := by
  have hnext : l.next (.leave t) = (l.withdraw t).dismiss t := by
    simp only [next, ht]
  refine .step (m := .leave t) (by simp [allows, ht]) ?_
  exact hnext ▸ ⟨[], rfl, rfl, get?_dismiss _ t⟩

/-- A consumer that waits, and whom no call has reached, is given up. -/
theorem turn_abandon (ht : l.tasks.get? t = some .parked) (hreached : t ∉ l.reached) :
    Turn l t (l.shared.abandon t) none := by
  have hnext : l.next (.abandon t) = (l.strike t).dismiss t := by
    have hwithdraw : l.withdraw t = l.strike t := if_neg (by simpa using hreached)
    simp only [next, ht, hwithdraw]
  refine .step (m := .abandon t) (by simp [allows, ht]) ?_
  exact hnext ▸ ⟨[], rfl, rfl, get?_dismiss _ t⟩

section Consult

variable (ht : ∀ w, l.tasks.get? t = some w → w = .parked) (hfree : t ∉ l.itemReady.waiters)

include ht hfree

/-- **A consumer that finds nothing** is registered and waits. A call that was kept makes it look twice. -/
theorem turn_consult_notYet (h : l.Sound) (hhand : l.floor.queue.hand = .notYet) :
    Turn l t (l.shared.consult t).1 (some .parked) := by
  refine turn_ask (allows_ask ht hfree) hhand ?_
  cases hkept : l.itemReady.kept with
  | false =>
    refine ⟨[], rfl, ?_, get?_put _ t _⟩
    simp [SharedQueue.consult, shared, hhand, Notice.register, hkept, put, register]
  | true =>
    have hparked := get?_put ((l.register t).put t .looking) t .parked
    have hboard : (l.register t).itemReady = { l.itemReady with kept := false } := by
      simp [register, Notice.register, hkept]
    refine turn_ask (allows_ask ?_ ?_) hhand ⟨[], rfl, ?_, get?_put _ t _⟩
    · intro w hw
      exact Option.some.inj (hw.symm.trans hparked)
    · show t ∉ (l.register t).itemReady.waiters
      rw [hboard]
      exact h.kept hkept ▸ List.not_mem_nil
    · simp [SharedQueue.consult, shared, hhand, Notice.register, hkept, put, register]

/-- **A consumer that gets something** is not registered any more, and the next one is called if more is
there. -/
theorem turn_consult_hand (hhand : l.floor.queue.hand ≠ .notYet) :
    Turn l t (l.shared.consult t).1 none := by
  have hlooking := get?_put (l.register t) t .looking
  refine .step (m := .ask t) (allows_ask ht hfree) (.step (m := .look t) (by simp [next, allows, hlooking]) ?_)
  have hlook : (l.next (.ask t)).next (.look t) =
      { (l.register t).put t .looking with floor := l.floor.take }.put t
        (.calling .withdraws l.floor.queue.takeCalls) :=
    look_of_hand (l := (l.register t).put t .looking) hhand t
  rw [hlook]
  -- the consumer with its calls to make, and what the queue and the boards are to be
  generalize hl' : { (l.register t).put t .looking with floor := l.floor.take } = l'
  have hreached : t ∉ l'.reached := by
    subst hl'
    simp [put, register]
  have hshared : (l.shared.consult t).1 =
      ({ l'.shared with itemReady := l'.itemReady.withdraw t }.calls l.floor.queue.takeCalls).1 := by
    subst hl'
    unfold SharedQueue.consult
    rw [show l.shared.queue.hand = l.floor.queue.hand from rfl]
    cases hcase : l.floor.queue.hand with
    | notYet => exact absurd hcase hhand
    | finished => rfl
    | item x => rfl
  rw [hshared]
  have hcalls : l.floor.queue.takeCalls = [] ∨ l.floor.queue.takeCalls = [.oneConsumer] := by
    unfold takeCalls
    split <;> simp
  rcases hcalls with hnone | hone
  · rw [hnone]
    have hturn := turn_leave (get?_put l' t (.calling .withdraws []))
    have hkeeps : (l'.put t (.calling .withdraws [])).withdraw t
        = (l'.put t (.calling .withdraws [])).strike t := if_neg (by simpa [put] using hreached)
    rw [hkeeps] at hturn
    exact hturn
  · rw [hone]
    have hcalling := get?_put l' t (.calling .withdraws [.oneConsumer])
    refine .step (m := .call t) (by simp [allows, hcalling]) ?_
    have hnext : (l'.put t (.calling .withdraws [.oneConsumer])).next (.call t) =
        ((l'.put t (.calling .withdraws [.oneConsumer])).call .oneConsumer).put t
          (.calling .withdraws []) := by
      simp only [next, hcalling]
    rw [hnext]
    -- the consumer is through, and the boards are those of a consumer that goes before it calls
    generalize hl'' : ((l'.put t (.calling .withdraws [.oneConsumer])).call .oneConsumer).put t
      (.calling .withdraws []) = l''
    have hturn := turn_leave (l := l'') (t := t) (hl'' ▸ get?_put _ t _)
    have hboard : (l''.withdraw t).itemReady = (l'.itemReady.withdraw t).callOne.1 :=
      itemReady_withdraw_call (l := l'.put t (.calling .withdraws [.oneConsumer])) (hl'' ▸ rfl)
        (hl'' ▸ rfl) hreached
    have hfinal : (l''.withdraw t).shared =
        ({ l'.shared with itemReady := l'.itemReady.withdraw t }.calls [.oneConsumer]).1 := by
      unfold shared
      rw [hboard, floor_withdraw, drained_withdraw, ← hl'']
      rfl
    exact hfinal ▸ hturn

end Consult

/-! ## Drains -/

/-- All drains are called at once, so that no call for them is kept. -/
theorem drained_kept_next (h : l.drained.kept = false) (m : Move α) : (l.next m).drained.kept = false := by
  have hwithdraw : ∀ t, (l.withdraw t).drained.kept = false := fun t => drained_withdraw l t ▸ h
  cases m with
  | use t m => exact h
  | drain t => exact h
  | ask t => exact h
  | call t =>
    simp only [next]
    split
    · rename_i c _ _
      cases c <;> exact h
    · exact h
  | leave t =>
    simp only [next]
    split
    · exact hwithdraw t
    · exact h
  | look t =>
    show (l.look t).drained.kept = false
    unfold look
    split <;> exact h
  | watch t =>
    show ((l.drained.withdraw t).register t).1.kept = false
    unfold Notice.register
    split
    · rfl
    · exact h
  | check t =>
    show (l.check t).drained.kept = false
    unfold check
    split <;> exact h
  | abandon t =>
    simp only [next]
    split
    · exact hwithdraw t
    · exact h

/-- **A drain looks for the end**: it is through if the queue is idle, and registered if it is not. -/
theorem turn_consultEnd
    (ht : l.tasks.get? t = some (.calling .drains []) ∨ l.tasks.get? t = some .lingering)
    (hkept : l.drained.kept = false) :
    Turn l t (l.shared.consultEnd t).1
      (if l.floor.queue.isIdle then none else some .lingering) := by
  have hwatch : l.allows (.watch t) = true := by
    rcases ht with ht | ht <;> simp [allows, ht]
  have hwatching := get?_put (l.enlist t) t .watching
  refine .step hwatch (.step (m := .check t) (by simp [next, allows, hwatching]) ?_)
  show Turn (((l.enlist t).put t .watching).check t) t _ _
  unfold check SharedQueue.consultEnd
  rw [show ((l.enlist t).put t .watching).floor = l.floor from rfl,
    show l.shared.queue = l.floor.queue from rfl]
  by_cases hidle : l.floor.queue.isIdle = true
  · rw [if_pos hidle, if_pos hidle, if_pos hidle]
    refine ⟨[], rfl, ?_, get?_dismiss _ t⟩
    simp [shared, dismiss, put, enlist, Notice.register, Notice.withdraw, hkept]
  · rw [if_neg hidle, if_neg hidle, if_neg hidle]
    exact ⟨[], rfl, rfl, get?_put _ t _⟩

/-- **A drain begins**: it shuts the queue down, calls all consumers, and looks. -/
theorem turn_drain (ht : l.tasks.get? t = none) (hkept : l.drained.kept = false) :
    Turn l t (l.shared.shutDown.1.consultEnd t).1
      (if l.floor.queue.isIdle then none else some .lingering) := by
  refine .step (m := .drain t) (by simp [allows, Table.contains, ht])
    (turn_calls (get?_put _ t _) fun l' hs' ht' => ?_)
  replace hs' : l'.shared = l.shared.shutDown.1 := hs'
  have hdrained : l'.drained = l.drained := congrArg SharedQueue.drained hs'
  have hidle : l'.floor.queue.isIdle = l.floor.queue.isIdle :=
    congrArg (fun s : SharedQueue α => s.queue.isIdle) hs'
  rw [← hs', ← hidle]
  exact turn_consultEnd (.inl ht') (hdrained ▸ hkept)

end BorderSync.WorkQueue.Lobby
