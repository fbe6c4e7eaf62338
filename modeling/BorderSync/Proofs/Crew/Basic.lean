/-
# BorderSync.Proofs.Crew.Basic -- a queue and the workers that serve it

A worker asks for an item, handles it, reports it as done and asks again, until it hears that no item
will come; then it leaves. Workers are told apart by nothing but the item that they have in hand, so a
**crew** counts those that ask and those that have left; those at work are the items in hand. What
producers, timers and handlers do to the queue comes in between at any moment, also what a worker adds
while it handles its own item.

A worker that asks in vain may ask again at any moment: that it is called when there is something for
it is not told here.
-/
import BorderSync.Proofs.Queue.Load

namespace BorderSync.WorkQueue

/-- **Crew**: a queue, what is under way around it, and the workers without an item. -/
structure Crew (α : Type) where
  floor : Floor α
  /-- Workers that ask for an item. -/
  free : Nat
  /-- Workers that were told that no item will come. -/
  gone : Nat := 0

namespace Crew

variable {α : Type} [BEq α]

/-- **Move** of a crew, or of somebody else at its queue. -/
inductive Move (α : Type) where
  /-- Something that is done to the queue in between. -/
  | outside (m : WorkQueue.Move α)
  /-- A worker asks for an item. -/
  | ask
  /-- A worker is done with its item. -/
  | done (x : α)
  deriving Repr

/-- Items are taken and reported as done by workers only. -/
def isOutside : WorkQueue.Move α → Bool
  | .take => false
  | .done _ => false
  | _ => true

/-- A new queue with workers that are all about to ask. -/
def start (name : String) (base max : Duration) (n : Nat) : Crew α :=
  { floor := .start name base max, free := n }

/-- A worker asks: it has an item in hand afterwards, or leaves, or goes on asking. -/
def ask (c : Crew α) : Crew α :=
  match c.floor.queue.hand with
  | .item _ => { c with floor := c.floor.take, free := c.free - 1 }
  | .finished => { c with free := c.free - 1, gone := c.gone + 1 }
  | .notYet => c

/-- The crew after a move. -/
def next (c : Crew α) : Move α → Crew α
  | .outside m => { c with floor := c.floor.next m }
  | .ask => c.ask
  | .done x => { c with floor := c.floor.next (.done x), free := c.free + 1 }

/-- A worker asks only if it has nothing in hand, and is done only with what it has in hand. -/
def allows (c : Crew α) : Move α → Bool
  | .outside m => isOutside m && c.floor.allows m
  | .ask => 0 < c.free
  | .done x => c.floor.hands.contains x

/-- **The machine of a crew**: its legal runs are all interleavings of workers and of those who use the
queue besides them. -/
def machine (α : Type) [BEq α] : Machine (Crew α) (Move α) :=
  ⟨allows, next⟩

/-! ## The queue of a crew -/

/-- What a move of a crew is to the queue. -/
def Move.onFloor : Move α → WorkQueue.Move α
  | .outside m => m
  | .ask => .take
  | .done x => .done x

theorem ask_of_waiting {c : Crew α} {x : α} {rest : List α} (h : c.floor.queue.waiting = x :: rest) :
    c.ask = { c with floor := c.floor.take, free := c.free - 1 } := by
  unfold ask
  rw [(c.floor.queue.hand_eq_item_iff x).mpr ⟨rest, h⟩]

theorem ask_of_finished {c : Crew α} (h : c.floor.queue.waiting = [])
    (hclosed : c.floor.queue.closed = true) (hdelayed : c.floor.queue.delayed = 0) :
    c.ask = { c with free := c.free - 1, gone := c.gone + 1 } := by
  unfold ask
  rw [hand_of_empty h, hclosed, hdelayed]
  rfl

theorem ask_of_notYet {c : Crew α} (h : c.floor.queue.waiting = [])
    (hmore : ¬(c.floor.queue.closed = true ∧ c.floor.queue.delayed = 0)) : c.ask = c := by
  unfold ask
  rw [hand_of_empty h, if_neg (by simpa using hmore)]

theorem floor_ask (c : Crew α) : c.ask.floor = c.floor.take := by
  cases hw : c.floor.queue.waiting with
  | nil =>
    rw [Floor.take_of_empty hw]
    unfold ask
    rw [hand_of_empty hw]
    cases c.floor.queue.closed && c.floor.queue.delayed == 0 <;> rfl
  | cons x rest => rw [ask_of_waiting hw]

/-- The queue of a crew moves as a queue does. -/
theorem floor_next (c : Crew α) (m : Move α) : (c.next m).floor = c.floor.next m.onFloor := by
  cases m with
  | outside m => rfl
  | ask => exact c.floor_ask
  | done x => rfl

theorem allows_onFloor {c : Crew α} {m : Move α} (h : c.allows m = true) :
    c.floor.allows m.onFloor = true := by
  cases m with
  | outside m => exact (Bool.and_eq_true_iff.mp h).2
  | ask => rfl
  | done x => exact h

/-- A run of a crew is a run of its queue. -/
theorem run_onFloor {c : Crew α} {ms : List (Move α)} (hl : (machine α).legal c ms = true) :
    (Floor.machine α).legal c.floor (ms.map Move.onFloor) = true ∧
      ((machine α).run c ms).floor = (Floor.machine α).run c.floor (ms.map Move.onFloor) := by
  induction ms generalizing c with
  | nil => exact ⟨rfl, rfl⟩
  | cons m ms ih =>
    obtain ⟨ha, hl⟩ := ((machine α).legal_cons c m ms).mp hl
    obtain ⟨hlegal, hrun⟩ := ih hl
    rw [show (machine α).next c m = c.next m from rfl, c.floor_next m] at hlegal hrun
    refine ⟨?_, ?_⟩
    · rw [List.map_cons, Machine.legal_cons]
      exact ⟨allows_onFloor ha, hlegal⟩
    · rw [List.map_cons, Machine.run_cons, Machine.run_cons]
      exact hrun

/-! ## A queue that is shut down -/

/-- A queue that is shut down accepts nothing, at once or for later. -/
theorem addAfter_of_closed {s : Floor α} (hclosed : s.queue.closed = true) (x : α) (d : Duration) :
    s.addAfter x d = s := by
  unfold Floor.addAfter WorkQueue.addAfter admission
  by_cases hd : d.nanos = 0 <;> simp [hd, hclosed, WorkQueue.add]

/-- After the shutdown nothing from outside changes the queue, except delayed adds that land. Failures may
still be counted. -/
theorem next_of_closed {s : Floor α} (hclosed : s.queue.closed = true) {m : WorkQueue.Move α}
    (hm : isOutside m = true) (hland : ∀ x, m ≠ .land x) :
    ∃ b, s.next m = { s with queue := { s.queue with backoff := b } } := by
  cases m with
  | add x =>
    refine ⟨s.queue.backoff, ?_⟩
    rw [show s.next (.add x) = { s with queue := s.queue.add x } from rfl, WorkQueue.add, if_pos hclosed]
  | addAfter x d => exact ⟨s.queue.backoff, addAfter_of_closed hclosed x d⟩
  | addRateLimited x =>
    exact ⟨s.queue.backoff.record x,
      addAfter_of_closed (s := { s with queue := s.queue.recordFailure x }) hclosed x _⟩
  | recordFailure x => exact ⟨_, rfl⟩
  | forget x => exact ⟨_, rfl⟩
  | land x => exact absurd rfl (hland x)
  | take => exact absurd hm Bool.false_ne_true
  | done x => exact absurd hm Bool.false_ne_true
  | shutDown =>
    refine ⟨s.queue.backoff, ?_⟩
    simp only [Floor.next, WorkQueue.shutDown, ← hclosed]

/-- A queue that is shut down stays so. -/
theorem closed_next {s : Floor α} (hclosed : s.queue.closed = true) (m : WorkQueue.Move α) :
    (s.next m).queue.closed = true := by
  cases m with
  | land x => exact (closed_land _ x).trans hclosed
  | take =>
    show s.queue.take.closed = true
    cases hw : s.queue.waiting with
    | nil => rw [WorkQueue.take_of_empty hw, hclosed]
    | cons x rest => rw [closed_take hw, hclosed]
  | done x => exact hclosed
  | add x => exact (closed_add _ x).trans hclosed
  | addAfter x d => exact (closed_addAfter _ x d).trans hclosed
  | addRateLimited x => exact (closed_addAfter _ x _).trans hclosed
  | recordFailure x => exact hclosed
  | forget x => exact hclosed
  | shutDown => rfl

/-! ## What holds at every moment -/

/-- **Sound**, for a crew of `n`: every worker asks, has an item in hand or has left. Once one has left,
nothing more will come; once all have left, nothing waits. -/
structure Sound (n : Nat) (c : Crew α) : Prop where
  floor : c.floor.Sound
  count : c.free + c.floor.hands.length + c.gone = n
  left : 0 < c.gone → c.floor.queue.closed = true ∧ c.floor.queue.delayed = 0
  emptied : 0 < c.gone → c.gone = n → c.floor.queue.waiting = []

namespace Sound

variable {n : Nat} {c : Crew α}

/-- When all have left nobody has anything in hand. -/
theorem hands_of_gone (h : c.Sound n) (hgone : c.gone = n) : c.floor.hands = [] := by
  have hcount := h.count
  exact List.length_eq_zero_iff.mp (by omega)

/-- Once a worker has left, nothing is under way to the queue. -/
theorem coming_of_gone (h : c.Sound n) (hgone : 0 < c.gone) : c.floor.coming = [] :=
  List.length_eq_zero_iff.mp (h.floor.delayed ▸ (h.left hgone).2)

variable [EquivBEq α]

theorem start (name : String) (base max : Duration) (n : Nat) :
    (Crew.start name base max n : Crew α).Sound n where
  floor := .start name base max
  count := rfl
  left h := absurd h (Nat.lt_irrefl 0)
  emptied h := absurd h (Nat.lt_irrefl 0)

theorem outside (h : c.Sound n) {m : WorkQueue.Move α} (hm : isOutside m = true)
    (ha : c.floor.allows m = true) : (c.next (.outside m)).Sound n := by
  show Sound n { c with floor := c.floor.next m }
  have hfloor := h.floor.next m ha
  by_cases hgone : 0 < c.gone
  · -- nothing is under way any more, so nothing lands
    have hland : ∀ x, m ≠ .land x := by
      rintro x rfl
      rw [show c.floor.allows (.land x) = c.floor.coming.contains x from rfl,
        h.coming_of_gone hgone] at ha
      exact absurd ha (by simp)
    obtain ⟨b, hb⟩ := next_of_closed (h.left hgone).1 hm hland
    rw [hb] at hfloor ⊢
    exact ⟨hfloor, h.count, h.left, h.emptied⟩
  · have hhands : (c.floor.next m).hands = c.floor.hands := by
      cases m with
      | take => exact absurd hm Bool.false_ne_true
      | done x => exact absurd hm Bool.false_ne_true
      | _ => rfl
    refine ⟨hfloor, ?_, fun hpos => absurd hpos hgone, fun hpos => absurd hpos hgone⟩
    rw [hhands, h.count]

theorem ask (h : c.Sound n) (hfree : 0 < c.free) : c.ask.Sound n := by
  have hcount := h.count
  cases hw : c.floor.queue.waiting with
  | cons x rest =>
    rw [ask_of_waiting hw]
    refine ⟨h.floor.take, ?_, fun hpos => ?_, fun hpos hall => ?_⟩
    · show c.free - 1 + c.floor.take.hands.length + c.gone = n
      rw [Floor.hands_take hw, List.length_append, List.length_singleton]
      omega
    · exact ⟨(closed_take hw).trans (h.left hpos).1, (delayed_take hw).trans (h.left hpos).2⟩
    · exact absurd hall (by show c.gone ≠ n; omega)
  | nil =>
    by_cases hmore : c.floor.queue.closed = true ∧ c.floor.queue.delayed = 0
    · rw [ask_of_finished hw hmore.1 hmore.2]
      refine ⟨h.floor, ?_, fun _ => hmore, fun _ _ => hw⟩
      show c.free - 1 + c.floor.hands.length + (c.gone + 1) = n
      omega
    · rw [ask_of_notYet hw hmore]
      exact h

theorem done (h : c.Sound n) {x : α} (hx : c.floor.hands.contains x = true) :
    (c.next (.done x)).Sound n := by
  have hcount := h.count
  have hlength : (c.floor.hands.eraseP (· == x)).length + 1 = c.floor.hands.length := by
    simpa using countP_eraseP (p := fun _ => true) (fun _ _ _ => rfl) hx
  refine ⟨h.floor.done hx, ?_, h.left, fun hpos hall => ?_⟩
  · show c.free + 1 + (c.floor.hands.eraseP (· == x)).length + c.gone = n
    omega
  · exact absurd hall (by show c.gone ≠ n; omega)

/-- **Every allowed move keeps a crew sound.** -/
theorem next (h : c.Sound n) (m : Move α) (ha : c.allows m = true) : (c.next m).Sound n := by
  cases m with
  | outside m => exact h.outside (Bool.and_eq_true_iff.mp ha).1 (Bool.and_eq_true_iff.mp ha).2
  | ask => exact h.ask (of_decide_eq_true ha)
  | done x => exact h.done ha

/-- Every legal run keeps a crew sound. -/
theorem run (h : c.Sound n) {ms : List (Move α)} (hl : (machine α).legal c ms = true) :
    ((machine α).run c ms).Sound n :=
  (machine α).run_keeps (P := Crew.Sound n) (fun _ m hs ha => hs.next m ha) h hl

end Sound

end Crew

end BorderSync.WorkQueue
