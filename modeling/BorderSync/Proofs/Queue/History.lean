/-
# BorderSync.Proofs.Queue.History -- what can be seen of a run of a queue

A run leaves marks: an item is added, a delayed add is announced and lands later, an item enters the
line of those that wait, an item is handed out. For one item the marks are a run of two machines that
are much simpler than the queue: one remembers whether the item is owed to a consumer, the other
how many delayed adds of it are under way. What the marks of a run look like is read off from these.
-/
import BorderSync.Proofs.Queue.Moves

namespace BorderSync.WorkQueue

/-- **Mark** of a move. -/
inductive Mark (α : Type) where
  /-- An add was accepted at once. -/
  | added (x : α)
  /-- A delayed add was accepted. -/
  | announced (x : α)
  /-- A delayed add has landed; the queue accepts it whether it is shut down or not. -/
  | landed (x : α)
  /-- An item joins those that wait, at their end. -/
  | entered (x : α)
  /-- A consumer gets an item. -/
  | handed (x : α)
  /-- The queue is shut down. -/
  | closed
  deriving DecidableEq, Repr

namespace Mark

variable {α : Type} [BEq α]

/-- An add of an item is accepted. -/
def accepts (x : α) : Mark α → Bool
  | .added y => x == y
  | .landed y => x == y
  | _ => false

/-- An item is handed out. -/
def hands (x : α) : Mark α → Bool
  | .handed y => x == y
  | _ => false

/-- A delayed add of an item is accepted. -/
def announces (x : α) : Mark α → Bool
  | .announced y => x == y
  | _ => false

/-- A delayed add of an item lands. -/
def lands (x : α) : Mark α → Bool
  | .landed y => x == y
  | _ => false

omit [BEq α] in
/-- An add is accepted, for now or for later. -/
def admits : Mark α → Bool
  | .added _ => true
  | .announced _ => true
  | _ => false

omit [BEq α] in
/-- The queue is shut down. -/
def closes : Mark α → Bool
  | .closed => true
  | _ => false

omit [BEq α] in
/-- The item that joins those that wait. -/
def entering? : Mark α → Option α
  | .entered x => some x
  | _ => none

omit [BEq α] in
/-- The item that is handed out. -/
def handed? : Mark α → Option α
  | .handed x => some x
  | _ => none

end Mark

namespace Floor

variable {α : Type} [BEq α]

/-- An item joins those that wait, unless it is dirty or in hand. -/
def enterMarks (s : Floor α) (x : α) : List (Mark α) :=
  if s.queue.enters x then [.entered x] else []

/-- Marks of an add. -/
def addMarks (s : Floor α) (x : α) : List (Mark α) :=
  if s.queue.closed then [] else .added x :: s.enterMarks x

/-- Marks of an add after a delay. -/
def delayMarks (s : Floor α) (x : α) (d : Duration) : List (Mark α) :=
  match s.queue.admission d with
  | .now => s.addMarks x
  | .later => [.announced x]
  | .refused => []

/-- **The marks of a move.** -/
def marks (s : Floor α) : Move α → List (Mark α)
  | .add x => s.addMarks x
  | .addAfter x d => s.delayMarks x d
  | .addRateLimited x => s.delayMarks x (s.queue.backoff.wait x)
  | .land x => .landed x :: s.enterMarks x
  | .take =>
    match s.queue.hand with
    | .item x => [.handed x]
    | _ => []
  | .done x => if s.queue.dirty.contains x then [.entered x] else []
  | .shutDown => [.closed]
  | _ => []

/-- The marks of a run. -/
def history (s : Floor α) (ms : List (Move α)) : List (Mark α) :=
  (machine α).log marks s ms

/-- A consumer that finds nothing leaves no mark. -/
theorem marks_take_of_empty {s : Floor α} (h : s.queue.waiting = []) : s.marks .take = [] := by
  unfold marks
  rw [hand_of_empty h]
  cases s.queue.closed && s.queue.delayed == 0 <;> rfl

/-- A consumer gets the first item that waits. -/
theorem marks_take {s : Floor α} {x : α} {rest : List α} (h : s.queue.waiting = x :: rest) :
    s.marks .take = [.handed x] := by
  unfold marks
  rw [(s.queue.hand_eq_item_iff x).mpr ⟨rest, h⟩]

end Floor

/-! ## The machines that remember -/

variable {α : Type} [BEq α]

/-- **Owed**: an accepted add owes the item to a consumer, a hand-out settles that; nothing is handed
out that is not owed. -/
def owed (x : α) : Machine Bool (Mark α) where
  allows b m := b || !m.hands x
  next b m := m.accepts x || (b && !m.hands x)

/-- **Under way**: a delayed add that lands was announced and has not landed before. -/
def underWay (x : α) : Machine Nat (Mark α) where
  allows n m := decide (0 < n) || !m.lands x
  next n m := if m.announces x then n + 1 else if m.lands x then n - 1 else n

/-- **Gate**: after the shutdown no add is accepted any more. -/
def gate (α : Type) : Machine Bool (Mark α) where
  allows shut m := !(shut && m.admits)
  next shut m := shut || m.closes

namespace Floor

/-- Joining those that wait settles nothing and owes nothing. -/
theorem owed_enter (s : Floor α) (x y : α) (b : Bool) :
    (owed x).legal b (s.enterMarks y) = true ∧ (owed x).run b (s.enterMarks y) = b := by
  unfold enterMarks
  split
  · cases b <;> exact ⟨rfl, rfl⟩
  · exact ⟨rfl, rfl⟩

variable [EquivBEq α]

theorem owed_push (s : Floor α) (x y : α) {m : Mark α} (hm : m.hands x = false)
    (ha : m.accepts x = (x == y)) :
    (owed x).legal (s.queue.dirty.contains x) (m :: s.enterMarks y) = true ∧
      (owed x).run (s.queue.dirty.contains x) (m :: s.enterMarks y) =
        (s.queue.push y).dirty.contains x := by
  have hallows : (owed x).allows (s.queue.dirty.contains x) m = true := by simp [owed, hm]
  have hnext : (owed x).next (s.queue.dirty.contains x) m = (s.queue.push y).dirty.contains x := by
    simp [owed, hm, ha, dirty_push, Bool.or_comm]
  obtain ⟨hlegal, hrun⟩ := s.owed_enter x y ((s.queue.push y).dirty.contains x)
  rw [Machine.legal_cons, Machine.run_cons, hnext]
  exact ⟨⟨hallows, hlegal⟩, hrun⟩

theorem owed_add (s : Floor α) (x y : α) :
    (owed x).legal (s.queue.dirty.contains x) (s.addMarks y) = true ∧
      (owed x).run (s.queue.dirty.contains x) (s.addMarks y) =
        (s.queue.add y).dirty.contains x := by
  unfold addMarks WorkQueue.add
  split
  · exact ⟨rfl, rfl⟩
  · exact owed_push s x y rfl rfl

theorem owed_addAfter (s : Floor α) (x y : α) (d : Duration) :
    (owed x).legal (s.queue.dirty.contains x) (s.delayMarks y d) = true ∧
      (owed x).run (s.queue.dirty.contains x) (s.delayMarks y d) =
        (s.addAfter y d).queue.dirty.contains x := by
  unfold delayMarks addAfter WorkQueue.addAfter
  cases s.queue.admission d with
  | now => exact s.owed_add x y
  | later =>
    show _ ∧ _ = s.queue.dirty.contains x
    cases s.queue.dirty.contains x <;> exact ⟨rfl, rfl⟩
  | refused => exact ⟨rfl, rfl⟩

/-- **For one item the marks of a move are those of a machine that owes it exactly while it is
dirty.** -/
theorem owed_step (x : α) (s : Floor α) (m : Move α) (hs : s.Sound) :
    (owed x).legal (s.queue.dirty.contains x) (s.marks m) = true ∧
      (owed x).run (s.queue.dirty.contains x) (s.marks m) =
        (s.next m).queue.dirty.contains x := by
  cases m with
  | add y => exact s.owed_add x y
  | addAfter y d => exact s.owed_addAfter x y d
  | addRateLimited y =>
    exact owed_addAfter { s with queue := s.queue.recordFailure y } x y (s.queue.backoff.wait y)
  | land y =>
    exact owed_push { s with queue := { s.queue with delayed := s.queue.delayed - 1 } } x y rfl rfl
  | take =>
    cases hw : s.queue.waiting with
    | nil =>
      rw [marks_take_of_empty hw, show s.next .take = s from take_of_empty hw]
      exact ⟨rfl, rfl⟩
    | cons y rest =>
      -- a hand-out is owed: what waits is dirty
      have hdirty := (hs.queue.of_first hw).1
      rw [marks_take hw]
      show _ ∧ _ = s.queue.take.dirty.contains x
      rw [dirty_take hw, contains_without]
      simp only [Machine.legal, Machine.run, owed, Mark.hands, Mark.accepts, Bool.false_or,
        Bool.and_true, and_true]
      by_cases hxy : x == y
      · rw [List.contains_congr hxy, hdirty, Bool.true_or]
      · simp [hxy]
  | done y =>
    show _ ∧ _ = s.queue.dirty.contains x
    rw [show s.marks (.done y) = if s.queue.dirty.contains y then [.entered y] else [] from rfl]
    split
    · cases s.queue.dirty.contains x <;> exact ⟨rfl, rfl⟩
    · exact ⟨rfl, rfl⟩
  | recordFailure y => exact ⟨rfl, rfl⟩
  | forget y => exact ⟨rfl, rfl⟩
  | shutDown =>
    show (owed x).legal (s.queue.dirty.contains x) [.closed] = true ∧ _ = s.queue.dirty.contains x
    cases s.queue.dirty.contains x <;> exact ⟨rfl, rfl⟩

end Floor

/-! ## Delayed adds under way -/

namespace Floor

/-- Marks that neither announce nor land an item leave the number of those under way. -/
theorem underWay_of_forall (x : α) {l : List (Mark α)}
    (h : ∀ m ∈ l, m.announces x = false ∧ m.lands x = false) (n : Nat) :
    (underWay x).legal n l = true ∧ (underWay x).run n l = n := by
  induction l with
  | nil => exact ⟨rfl, rfl⟩
  | cons m l ih =>
    obtain ⟨hannounces, hlands⟩ := h m List.mem_cons_self
    have hallows : (underWay x).allows n m = true := by simp [underWay, hlands]
    have hnext : (underWay x).next n m = n := by simp [underWay, hannounces, hlands]
    rw [Machine.legal_cons, Machine.run_cons, hnext]
    obtain ⟨hlegal, hrun⟩ := ih fun m' hm' => h m' (List.mem_cons_of_mem m hm')
    exact ⟨⟨hallows, hlegal⟩, hrun⟩

theorem underWay_enter (s : Floor α) (x y : α) (n : Nat) :
    (underWay x).legal n (s.enterMarks y) = true ∧ (underWay x).run n (s.enterMarks y) = n := by
  refine underWay_of_forall x ?_ n
  unfold enterMarks
  split <;> simp [Mark.announces, Mark.lands]

theorem underWay_add (s : Floor α) (x y : α) (n : Nat) :
    (underWay x).legal n (s.addMarks y) = true ∧ (underWay x).run n (s.addMarks y) = n := by
  refine underWay_of_forall x ?_ n
  unfold addMarks enterMarks
  split
  · simp
  · split <;> simp [Mark.announces, Mark.lands]

theorem underWay_addAfter (s : Floor α) (x y : α) (d : Duration) :
    (underWay x).legal (s.coming.countP (x == ·)) (s.delayMarks y d) = true ∧
      (underWay x).run (s.coming.countP (x == ·)) (s.delayMarks y d) =
        (s.addAfter y d).coming.countP (x == ·) := by
  unfold delayMarks addAfter
  cases s.queue.admission d with
  | now => exact s.underWay_add x y _
  | later =>
    simp only [Machine.legal, Machine.run, underWay, Mark.announces, Mark.lands, List.countP_append,
      List.countP_singleton]
    by_cases hxy : x == y <;> simp [hxy]
  | refused => exact ⟨rfl, rfl⟩

variable [EquivBEq α]

/-- **For one item the marks of a move are those of a machine that counts its delayed adds.** -/
theorem underWay_step (x : α) (s : Floor α) (m : Move α) (ha : s.allows m = true) :
    (underWay x).legal (s.coming.countP (x == ·)) (s.marks m) = true ∧
      (underWay x).run (s.coming.countP (x == ·)) (s.marks m) =
        (s.next m).coming.countP (x == ·) := by
  cases m with
  | add y => exact s.underWay_add x y _
  | addAfter y d => exact s.underWay_addAfter x y d
  | addRateLimited y =>
    exact underWay_addAfter { s with queue := s.queue.recordFailure y } x y (s.queue.backoff.wait y)
  | land y =>
    have hcount := countP_eraseP (coarse_beq x) (show s.coming.contains y = true from ha)
    obtain ⟨hlegal, hrun⟩ := s.underWay_enter x y ((s.coming.eraseP (· == y)).countP (x == ·))
    have hnext : (underWay x).next (s.coming.countP (x == ·)) (.landed y)
        = (s.coming.eraseP (· == y)).countP (x == ·) := by
      rw [← hcount]
      cases hxy : x == y <;> simp [underWay, Mark.announces, Mark.lands, hxy]
    show (underWay x).legal _ (.landed y :: s.enterMarks y) = true ∧
      (underWay x).run _ (.landed y :: s.enterMarks y) = (s.coming.eraseP (· == y)).countP (x == ·)
    rw [Machine.legal_cons, Machine.run_cons, hnext]
    refine ⟨⟨?_, hlegal⟩, hrun⟩
    rw [← hcount]
    cases hxy : x == y <;> simp [underWay, Mark.lands, hxy]
  | take =>
    refine underWay_of_forall x ?_ _
    unfold marks
    simp only
    split <;> simp [Mark.announces, Mark.lands]
  | done y =>
    refine underWay_of_forall x ?_ _
    rw [show s.marks (.done y) = if s.queue.dirty.contains y then [.entered y] else [] from rfl]
    split <;> simp [Mark.announces, Mark.lands]
  | recordFailure y => exact ⟨rfl, rfl⟩
  | forget y => exact ⟨rfl, rfl⟩
  | shutDown => exact underWay_of_forall x (by simp [marks, Mark.announces, Mark.lands]) _

end Floor

/-! ## The shutdown -/

namespace Floor

omit [BEq α] in
/-- Marks that close nothing leave the gate as it is. -/
theorem gate_of_forall {l : List (Mark α)} {shut : Bool} (hopen : ∀ m ∈ l, m.closes = false)
    (hshut : shut = true → ∀ m ∈ l, m.admits = false) :
    (gate α).legal shut l = true ∧ (gate α).run shut l = shut := by
  induction l with
  | nil => exact ⟨rfl, rfl⟩
  | cons m l ih =>
    obtain ⟨hm, hl⟩ := List.forall_mem_cons.mp hopen
    have hallows : (gate α).allows shut m = true := by
      cases shut with
      | false => rfl
      | true => simp [gate, hshut rfl m List.mem_cons_self]
    have hnext : (gate α).next shut m = shut := by simp [gate, hm]
    rw [Machine.legal_cons, Machine.run_cons, hnext]
    obtain ⟨hlegal, hrun⟩ := ih hl fun h m' hm' => hshut h m' (List.mem_cons_of_mem m hm')
    exact ⟨⟨hallows, hlegal⟩, hrun⟩

theorem gate_add (s : Floor α) (x : α) :
    (gate α).legal s.queue.closed (s.addMarks x) = true ∧
      (gate α).run s.queue.closed (s.addMarks x) = s.queue.closed := by
  refine gate_of_forall ?_ ?_
  · unfold addMarks enterMarks
    split
    · simp
    · split <;> simp [Mark.closes]
  · intro h
    simp [addMarks, h]

theorem gate_addAfter (s : Floor α) (x : α) (d : Duration) :
    (gate α).legal s.queue.closed (s.delayMarks x d) = true ∧
      (gate α).run s.queue.closed (s.delayMarks x d) = (s.addAfter x d).queue.closed := by
  rw [show (s.addAfter x d).queue.closed = s.queue.closed from closed_addAfter s.queue x d]
  unfold delayMarks
  cases hadmission : s.queue.admission d with
  | now => exact s.gate_add x
  | later =>
    -- nothing is announced after the shutdown
    rw [not_closed_of_later hadmission]
    exact ⟨rfl, rfl⟩
  | refused => exact ⟨rfl, rfl⟩

/-- **The marks of a move pass the gate, which the shutdown closes.** -/
theorem gate_step (s : Floor α) (m : Move α) :
    (gate α).legal s.queue.closed (s.marks m) = true ∧
      (gate α).run s.queue.closed (s.marks m) = (s.next m).queue.closed := by
  cases m with
  | add x =>
    rw [show (s.next (.add x)).queue.closed = s.queue.closed from closed_add s.queue x]
    exact s.gate_add x
  | addAfter x d => exact s.gate_addAfter x d
  | addRateLimited x =>
    exact gate_addAfter { s with queue := s.queue.recordFailure x } x (s.queue.backoff.wait x)
  | land x =>
    rw [show (s.next (.land x)).queue.closed = s.queue.closed from closed_land s.queue x]
    refine gate_of_forall ?_ ?_ <;> unfold marks enterMarks <;> simp only <;> split <;>
      simp [Mark.closes, Mark.admits]
  | take =>
    have hclosed : s.take.queue.closed = s.queue.closed := by
      cases hw : s.queue.waiting with
      | nil => rw [take_of_empty hw]
      | cons x rest => exact closed_take hw
    rw [show (s.next .take).queue.closed = s.queue.closed from hclosed]
    refine gate_of_forall ?_ ?_ <;> unfold marks <;> simp only <;> split <;>
      simp [Mark.closes, Mark.admits]
  | done x =>
    rw [show s.marks (.done x) = if s.queue.dirty.contains x then [.entered x] else [] from rfl]
    refine gate_of_forall ?_ ?_ <;> split <;> simp [Mark.closes, Mark.admits]
  | recordFailure x => exact ⟨rfl, rfl⟩
  | forget x => exact ⟨rfl, rfl⟩
  | shutDown =>
    show (gate α).legal s.queue.closed [.closed] = true ∧ (gate α).run s.queue.closed [.closed] = true
    cases s.queue.closed <;> exact ⟨rfl, rfl⟩

end Floor

/-! ## The line of those that wait -/

namespace Floor

theorem line_enter (s : Floor α) (x : α) :
    (s.enterMarks x).filterMap Mark.entering? = (if s.queue.enters x then [x] else []) ∧
      (s.enterMarks x).filterMap Mark.handed? = [] := by
  unfold enterMarks
  split <;> exact ⟨rfl, rfl⟩

theorem line_add (s : Floor α) (x : α) :
    s.queue.waiting ++ (s.addMarks x).filterMap Mark.entering? =
      (s.addMarks x).filterMap Mark.handed? ++ (s.queue.add x).waiting := by
  obtain ⟨hentering, hhanded⟩ := s.line_enter x
  unfold addMarks WorkQueue.add
  split
  · simp
  · rw [List.filterMap_cons_none rfl, List.filterMap_cons_none rfl, hentering, hhanded, waiting_push]
    rfl

theorem line_addAfter (s : Floor α) (x : α) (d : Duration) :
    s.queue.waiting ++ (s.delayMarks x d).filterMap Mark.entering? =
      (s.delayMarks x d).filterMap Mark.handed? ++ (s.addAfter x d).queue.waiting := by
  unfold delayMarks addAfter WorkQueue.addAfter
  cases s.queue.admission d with
  | now => exact s.line_add x
  | later => exact List.append_nil _
  | refused => exact List.append_nil _

/-- **Those that wait before a move, and then those that it puts behind them, are those that it
hands out, and then those that wait after it.** -/
theorem line_step (s : Floor α) (m : Move α) :
    s.queue.waiting ++ (s.marks m).filterMap Mark.entering? =
      (s.marks m).filterMap Mark.handed? ++ (s.next m).queue.waiting := by
  cases m with
  | add x => exact s.line_add x
  | addAfter x d => exact s.line_addAfter x d
  | addRateLimited x =>
    exact line_addAfter { s with queue := s.queue.recordFailure x } x (s.queue.backoff.wait x)
  | land x =>
    obtain ⟨hentering, hhanded⟩ := s.line_enter x
    show s.queue.waiting ++ (Mark.landed x :: s.enterMarks x).filterMap Mark.entering? =
      (Mark.landed x :: s.enterMarks x).filterMap Mark.handed? ++ (s.queue.land x).waiting
    rw [List.filterMap_cons_none rfl, List.filterMap_cons_none rfl, hentering, hhanded]
    exact (waiting_push { s.queue with delayed := s.queue.delayed - 1 } x).symm
  | take =>
    show s.queue.waiting ++ _ = _ ++ s.queue.take.waiting
    cases hw : s.queue.waiting with
    | nil =>
      rw [marks_take_of_empty hw, WorkQueue.take_of_empty hw, hw]
      rfl
    | cons x rest =>
      rw [marks_take hw, waiting_take hw]
      exact List.append_nil _
  | done x =>
    show s.queue.waiting ++ (if s.queue.dirty.contains x then [Mark.entered x] else []).filterMap
        Mark.entering? =
      (if s.queue.dirty.contains x then [Mark.entered x] else []).filterMap Mark.handed? ++
        (if s.queue.dirty.contains x then s.queue.waiting ++ [x] else s.queue.waiting)
    split
    · rfl
    · exact List.append_nil _
  | recordFailure x => exact List.append_nil _
  | forget x => exact List.append_nil _
  | shutDown => exact List.append_nil _

/-- Items are handed out in the order in which they joined those that wait. -/
theorem line_run (s : Floor α) (ms : List (Move α)) :
    s.queue.waiting ++ (s.history ms).filterMap Mark.entering? =
      (s.history ms).filterMap Mark.handed? ++ ((machine α).run s ms).queue.waiting := by
  induction ms generalizing s with
  | nil => exact List.append_nil _
  | cons m ms ih =>
    rw [history, Machine.log_cons, List.filterMap_append, List.filterMap_append, Machine.run_cons,
      ← List.append_assoc, s.line_step m, List.append_assoc, List.append_assoc]
    exact congrArg _ (ih (s.next m))

end Floor

end BorderSync.WorkQueue
