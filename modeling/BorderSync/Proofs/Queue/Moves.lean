/-
# BorderSync.Proofs.Queue.Moves -- a queue among those who use it

Producers add, timers let delayed items land, consumers ask and are done, someone shuts the queue
down. Each of these holds the queue alone while it lasts, so what several tasks do to one queue is a
list of moves. A **floor** is the queue together with what is under way around it: the delayed adds
that were accepted and have not landed, and the items that were handed out and are not done.

Two moves are not always allowed: only a delayed add that is under way lands, and only an item that
was handed out and is not done is reported as done. All other moves may come at any moment, also
after the shutdown.
-/
import BorderSync.Proofs.Machine
import BorderSync.Proofs.Queue.Operations

namespace BorderSync.WorkQueue

/-- **Move**: what is done to a queue by one task. -/
inductive Move (α : Type) where
  | add (x : α)
  | addAfter (x : α) (delay : Duration)
  | addRateLimited (x : α)
  /-- The first half of `addRateLimited`, when others come in between. -/
  | recordFailure (x : α)
  | forget (x : α)
  | land (x : α)
  /-- A consumer looks for an item. -/
  | take
  | done (x : α)
  | shutDown
  deriving Repr

/-- **Floor**: a queue and what is under way around it. -/
structure Floor (α : Type) where
  queue : WorkQueue α
  /-- Delayed adds that were accepted and have not landed. -/
  coming : List α := []
  /-- Items that were handed out and are not done. -/
  hands : List α := []

namespace Floor

variable {α : Type} [BEq α]

/-- A new queue with nothing around it. -/
def start (name : String) (base max : Duration) : Floor α :=
  { queue := .new name base max }

/-- Add an item after a delay. -/
def addAfter (s : Floor α) (x : α) (d : Duration) : Floor α :=
  { s with
    queue := s.queue.addAfter x d
    coming := match s.queue.admission d with
      | .later => s.coming ++ [x]
      | _ => s.coming }

/-- A consumer looks for an item. -/
def take (s : Floor α) : Floor α :=
  { s with
    queue := s.queue.take
    hands := match s.queue.hand with
      | .item x => s.hands ++ [x]
      | _ => s.hands }

/-- The floor after a move. -/
def next (s : Floor α) : Move α → Floor α
  | .add x => { s with queue := s.queue.add x }
  | .addAfter x d => s.addAfter x d
  | .addRateLimited x =>
    { s with queue := s.queue.recordFailure x }.addAfter x (s.queue.backoff.wait x)
  | .recordFailure x => { s with queue := s.queue.recordFailure x }
  | .forget x => { s with queue := s.queue.forget x }
  | .land x => { s with queue := s.queue.land x, coming := s.coming.eraseP (· == x) }
  | .take => s.take
  | .done x => { s with queue := s.queue.done x, hands := s.hands.eraseP (· == x) }
  | .shutDown => { s with queue := s.queue.shutDown }

/-- Only what is under way lands, and only what is in hand is done. -/
def allows (s : Floor α) : Move α → Bool
  | .land x => s.coming.contains x
  | .done x => s.hands.contains x
  | _ => true

/-- **The machine of a queue**: its legal runs are all interleavings of what tasks do to it. -/
def machine (α : Type) [BEq α] : Machine (Floor α) (Move α) :=
  ⟨allows, next⟩

/-! ## What is under way -/

/-- **Sound**: the lists of the queue fit together, its count of delayed adds is the number of those
under way, and what it holds to be in hand is what was handed out and is not done. -/
structure Sound (s : Floor α) : Prop where
  queue : s.queue.Sound
  hands_once : OnceEach s.hands
  in_hand : ∀ y, s.queue.processing.contains y = s.hands.contains y
  delayed : s.queue.delayed = s.coming.length

/-- One delayed add more is under way exactly when the queue counts one more. -/
theorem delayed_addAfter {s : Floor α} (h : s.queue.delayed = s.coming.length) (x : α)
    (d : Duration) : (s.addAfter x d).queue.delayed = (s.addAfter x d).coming.length := by
  unfold addAfter WorkQueue.addAfter
  cases s.queue.admission d with
  | now => rw [delayed_add, h]
  | later => simp [announce, h]
  | refused => exact h

/-- A consumer that finds nothing leaves the floor as it is. -/
theorem take_of_empty {s : Floor α} (h : s.queue.waiting = []) : s.take = s := by
  unfold take
  rw [WorkQueue.take_of_empty h, hand_of_empty h]
  cases s.queue.closed && s.queue.delayed == 0 <;> rfl

/-- A consumer that finds an item has it in hand. -/
theorem hands_take {s : Floor α} {x : α} {rest : List α} (h : s.queue.waiting = x :: rest) :
    s.take.hands = s.hands ++ [x] := by
  unfold take
  rw [(s.queue.hand_eq_item_iff x).mpr ⟨rest, h⟩]

namespace Sound

theorem start [EquivBEq α] (name : String) (base max : Duration) :
    (Floor.start name base max : Floor α).Sound :=
  ⟨.new name base max, .nil, fun _ => rfl, rfl⟩

variable [EquivBEq α] {s : Floor α}

theorem addAfter (h : s.Sound) (x : α) (d : Duration) : (s.addAfter x d).Sound where
  queue := h.queue.addAfter x d
  hands_once := h.hands_once
  in_hand y := by
    show (s.queue.addAfter x d).processing.contains y = s.hands.contains y
    rw [processing_addAfter, h.in_hand]
  delayed := delayed_addAfter h.delayed x d

theorem land (h : s.Sound) {x : α} (hx : s.coming.contains x = true) :
    (s.next (.land x)).Sound where
  queue := h.queue.land x
  hands_once := h.hands_once
  in_hand y := by
    show (s.queue.land x).processing.contains y = s.hands.contains y
    rw [processing_land, h.in_hand]
  delayed := by
    have hany : s.coming.any (· == x) = true := by
      obtain ⟨y, hy, hxy⟩ := List.contains_iff_exists_mem_beq.mp hx
      exact List.any_eq_true.mpr ⟨y, hy, BEq.symm hxy⟩
    simp only [next, delayed_land, List.length_eraseP, hany, if_true, h.delayed]

theorem take (h : s.Sound) : s.take.Sound := by
  cases hw : s.queue.waiting with
  | nil =>
    rw [take_of_empty hw]
    exact h
  | cons x rest =>
    obtain ⟨-, hprocessing⟩ := h.queue.of_first hw
    refine ⟨h.queue.take, ?_, ?_, ?_⟩
    · rw [hands_take hw]
      exact h.hands_once.concat (h.in_hand x ▸ hprocessing)
    · intro y
      show s.queue.take.processing.contains y = s.take.hands.contains y
      rw [hands_take hw, processing_take hw, if_neg (Bool.eq_false_iff.mp hprocessing),
        List.contains_append, List.contains_append, h.in_hand]
    · show s.queue.take.delayed = s.coming.length
      rw [delayed_take hw, h.delayed]

theorem done (h : s.Sound) {x : α} (hx : s.hands.contains x = true) :
    (s.next (.done x)).Sound where
  queue := h.queue.done (h.in_hand x ▸ hx)
  hands_once := h.hands_once.sublist List.eraseP_sublist
  in_hand y := by
    show (s.queue.processing.filter fun z => !(z == x)).contains y = (s.hands.eraseP (· == x)).contains y
    rw [contains_without, contains_eraseP h.hands_once, h.in_hand]
  delayed := h.delayed

/-- **Every allowed move keeps a floor sound.** -/
theorem next (h : s.Sound) (m : Move α) (ha : s.allows m = true) : (s.next m).Sound := by
  cases m with
  | add x =>
    refine ⟨h.queue.add x, h.hands_once, ?_, ?_⟩
    · intro y
      show (s.queue.add x).processing.contains y = s.hands.contains y
      rw [processing_add, h.in_hand]
    · show (s.queue.add x).delayed = s.coming.length
      rw [delayed_add, h.delayed]
  | addAfter x d => exact h.addAfter x d
  | addRateLimited x =>
    exact addAfter (s := { s with queue := s.queue.recordFailure x })
      ⟨h.queue.recordFailure x, h.hands_once, h.in_hand, h.delayed⟩ x _
  | recordFailure x => exact ⟨h.queue.recordFailure x, h.hands_once, h.in_hand, h.delayed⟩
  | forget x => exact ⟨h.queue.forget x, h.hands_once, h.in_hand, h.delayed⟩
  | land x => exact h.land ha
  | take => exact h.take
  | done x => exact h.done ha
  | shutDown => exact ⟨h.queue.shutDown, h.hands_once, h.in_hand, h.delayed⟩

/-- Every legal run keeps a floor sound. -/
theorem run (h : s.Sound) {ms : List (Move α)} (hl : (machine α).legal s ms = true) :
    ((machine α).run s ms).Sound :=
  (machine α).run_keeps (P := Floor.Sound) (fun _ m hs ha => hs.next m ha) h hl

end Sound

/-! ## Exclusion -/

/-- **Exclusive**: what holds of a queue and of what is under way around it at every moment. -/
structure Exclusive (s : Floor α) : Prop where
  /-- No item waits twice. -/
  waiting_once : OnceEach s.queue.waiting
  /-- An item waits exactly when it is dirty and not in hand. -/
  waits_iff : ∀ x, s.queue.waiting.contains x = true ↔
    s.queue.dirty.contains x = true ∧ s.queue.processing.contains x = false
  /-- The count of delayed adds is the number of those that were accepted and have not landed. -/
  delayed_eq : s.queue.delayed = s.coming.length
  /-- When one of them lands the count goes down by one: it is never zero then. -/
  delayed_land : ∀ x, s.allows (.land x) = true → (s.queue.land x).delayed + 1 = s.queue.delayed
  /-- What the queue holds to be in hand was handed out and is not done. -/
  in_hand : ∀ x, s.queue.processing.contains x = s.hands.contains x
  /-- No item is in hand twice. -/
  hands_once : OnceEach s.hands
  /-- An item that is about to be handed out is in nobody's hand. -/
  hand_free : ∀ x, s.queue.hand = .item x → s.hands.contains x = false

theorem Sound.exclusive [EquivBEq α] {s : Floor α} (h : s.Sound) : s.Exclusive where
  waiting_once := h.queue.waiting_once
  waits_iff x := by rw [h.queue.waits x, Bool.and_eq_true, Bool.not_eq_true']
  delayed_eq := h.delayed
  delayed_land x hx := by
    obtain ⟨y, hy, -⟩ := List.contains_iff_exists_mem_beq.mp (show s.coming.contains x = true from hx)
    have hpos : 0 < s.coming.length := List.length_pos_of_mem hy
    rw [delayed_land, h.delayed]
    omega
  in_hand := h.in_hand
  hands_once := h.hands_once
  hand_free x hx := by
    obtain ⟨rest, hw⟩ := (s.queue.hand_eq_item_iff x).mp hx
    rw [← h.in_hand x]
    exact (h.queue.of_first hw).2

/-- **Exclusion.** After every run of a new queue, whatever its moves and their order, no item waits
twice, an item waits exactly when it is dirty and not in hand, the delayed adds are counted right, and
no item can be handed out while an equal one is in hand. -/
theorem run_exclusive [EquivBEq α] (name : String) (base max : Duration) (ms : List (Move α))
    (hl : (machine α).legal (start name base max) ms = true) :
    Exclusive ((machine α).run (start name base max) ms) :=
  ((Sound.start name base max).run hl).exclusive

/-- Item 1 is added again while it is in hand, and a delayed item lands after the shutdown. -/
theorem run_exclusive_readded :
    (machine Nat).legal (start "q" ⟨1⟩ ⟨10⟩)
        [.add 1, .addAfter 2 ⟨5⟩, .take, .add 1, .shutDown, .land 2, .take, .done 1, .add 3] = true ∧
      Exclusive ((machine Nat).run (start "q" ⟨1⟩ ⟨10⟩)
        [.add 1, .addAfter 2 ⟨5⟩, .take, .add 1, .shutDown, .land 2, .take, .done 1, .add 3]) :=
  ⟨by decide, run_exclusive "q" ⟨1⟩ ⟨10⟩ _ (by decide)⟩

end Floor

end BorderSync.WorkQueue
