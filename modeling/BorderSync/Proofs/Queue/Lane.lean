/-
# BorderSync.Proofs.Queue.Lane -- a queue with its timers, the time, and one consumer

A producer adds one item after another, each after the wait that its failures earn. A timer runs for
every item that has to wait, and the item lands at some moment after its wait is over. One consumer takes an
item, deals with it, forgets its failures and is done with it, and then takes the next.

Producer, timers and consumer may be interrupted by one another between any two of these steps. Nothing says
in which order timers are served whose waits are over: any of the items may land. The mark of a landing tells
which other items still wait although their timers come before.
-/
import BorderSync.Proofs.Queue.Backoff

namespace BorderSync.WorkQueue

/-! ## Timers -/

/-- An item that is on its way, and the moment at which its wait is over. -/
structure Pending (α : Type) where
  due : Nat
  item : α
  deriving DecidableEq, Repr

/-- **The timers that come before one**: they are due earlier, or at the same moment and were started first.
The others are given apart, those that were started first and those that were started later. -/
def ahead {α : Type} (before : List (Pending α)) (u : Pending α) (after : List (Pending α)) :
    List (Pending α) :=
  before.filter (fun t => t.due ≤ u.due) ++ after.filter fun t => t.due < u.due

/-- Of timers that were started in the order in which they are due, all that were started first come before. -/
theorem filter_before {α : Type} {p : α → Bool} {before after : List (Pending α)} {u : Pending α}
    (hsorted : ((before ++ u :: after).filter fun t => p t.item).Pairwise fun a b => a.due ≤ b.due)
    (hu : p u.item = true) (hnone : ∀ t ∈ ahead before u after, p t.item = false) :
    before.filter (fun t => p t.item) = [] := by
  refine List.filter_eq_nil_iff.mpr ?_
  intro t ht hpt
  rw [List.filter_append] at hsorted
  have hdue : t.due ≤ u.due := (List.pairwise_append.mp hsorted).2.2 t (List.mem_filter.mpr ⟨ht, hpt⟩) u
    (List.mem_filter.mpr ⟨List.mem_cons_self, hu⟩)
  have hahead : t ∈ ahead before u after :=
    List.mem_append_left _ (List.mem_filter.mpr ⟨ht, decide_eq_true hdue⟩)
  exact Bool.false_ne_true ((hnone t hahead).symm.trans hpt)

/-! ## The machine -/

/-- **Desk** of the consumer. -/
inductive Desk (α : Type) where
  | free
  /-- The item was handed out. -/
  | fresh (x : α)
  /-- The item was dealt with. -/
  | dealt (x : α)
  /-- The failures of the item are forgotten as well. -/
  | forgotten (x : α)
  deriving DecidableEq, Repr

namespace Desk

variable {α : Type}

/-- The item on a desk. -/
def item? : Desk α → Option α
  | free => none
  | fresh x => some x
  | dealt x => some x
  | forgotten x => some x

/-- The item on a desk, if it was not dealt with. -/
def fresh? : Desk α → Option α
  | fresh x => some x
  | _ => none

/-- The item on a desk, if its failures are not forgotten. -/
def counted? : Desk α → Option α
  | fresh x => some x
  | dealt x => some x
  | _ => none

end Desk

/-- **Lane**: a queue, what is on its way to it, and the desk of its consumer. -/
structure Lane (α : Type) where
  queue : WorkQueue α
  /-- The item that the producer is about to add, and how long it waits. -/
  outbox : Option (α × Duration) := none
  /-- Items that have to wait, in the order in which their timers were started. -/
  pending : List (Pending α) := []
  desk : Desk α := .free
  /-- The moment, in milliseconds. -/
  now : Nat := 0

namespace Lane

/-- **Move** of the producer, of a timer, of the consumer, or of one who shuts the queue down. -/
inductive Move (α : Type) where
  /-- Time passes. -/
  | pass (millis : Nat)
  /-- The producer determines how long an item waits. -/
  | rate (x : α)
  /-- The producer adds the item after that wait. -/
  | post
  /-- The item at this place among those that wait lands. -/
  | land (i : Nat)
  /-- The consumer looks for an item. -/
  | take
  /-- The consumer deals with its item. -/
  | deal
  | forget
  | done
  | shutDown
  deriving Repr

variable {α : Type} [BEq α]

/-- Nothing was added yet. -/
def start (name : String) (base max : Duration) : Lane α :=
  { queue := .new name base max }

/-- The producer adds its item after the wait. -/
def post (s : Lane α) : Lane α :=
  match s.outbox with
  | none => s
  | some (x, wait) =>
    { s with
      queue := s.queue.addAfter x wait
      outbox := none
      pending := match s.queue.admission wait with
        | .later => s.pending ++ [⟨s.now + wait.ceilMillis, x⟩]
        | _ => s.pending }

/-- One of the items that wait lands. -/
def land (s : Lane α) (i : Nat) : Lane α :=
  match s.pending[i]? with
  | none => s
  | some u => { s with queue := s.queue.land u.item, pending := s.pending.eraseIdx i }

/-- The consumer looks for an item. -/
def take (s : Lane α) : Lane α :=
  match s.queue.hand with
  | .item x => { s with queue := s.queue.take, desk := .fresh x }
  | _ => s

/-- The lane after a move. -/
def next (s : Lane α) : Move α → Lane α
  | .pass millis => { s with now := s.now + millis }
  | .rate x =>
    { s with queue := s.queue.recordFailure x, outbox := some (x, s.queue.backoff.wait x) }
  | .post => s.post
  | .land i => s.land i
  | .take => s.take
  | .deal =>
    match s.desk with
    | .fresh x => { s with desk := .dealt x }
    | _ => s
  | .forget =>
    match s.desk with
    | .dealt x => { s with queue := s.queue.forget x, desk := .forgotten x }
    | _ => s
  | .done =>
    match s.desk with
    | .forgotten x => { s with queue := s.queue.done x, desk := .free }
    | _ => s
  | .shutDown => { s with queue := s.queue.shutDown }

/-- The producer adds an item before it turns to the next; an item lands once its wait is over; the consumer
finishes with an item before it takes another. -/
def allows (s : Lane α) : Move α → Bool
  | .rate _ => s.outbox.isNone
  | .post => s.outbox.isSome
  | .land i =>
    match s.pending[i]? with
    | none => false
    | some u => decide (u.due ≤ s.now)
  | .take =>
    match s.desk with
    | .free => true
    | _ => false
  | .deal =>
    match s.desk with
    | .fresh _ => true
    | _ => false
  | .forget =>
    match s.desk with
    | .dealt _ => true
    | _ => false
  | .done =>
    match s.desk with
    | .forgotten _ => true
    | _ => false
  | _ => true

/-- **The machine of a lane**: its legal runs are all interleavings of producer, timers and consumer, with
timers served in every order. -/
def machine (α : Type) [BEq α] : Machine (Lane α) (Move α) :=
  ⟨allows, next⟩

/-! ## What is under way -/

/-- The item that the producer is about to add. -/
def posting (s : Lane α) : List α :=
  s.outbox.toList.map Prod.fst

/-- The items that have to wait. -/
def coming (s : Lane α) : List α :=
  s.pending.map Pending.item

/-- An equal item is on its way, in the queue, or on the desk. -/
def isBusy (s : Lane α) (x : α) : Bool :=
  (s.coming ++ s.queue.dirty ++ s.desk.item?.toList).contains x

/-- An equal item will still be dealt with. -/
def isAwaited (s : Lane α) (x : α) : Bool :=
  (s.coming ++ s.queue.dirty ++ s.desk.fresh?.toList).contains x

/-- The failures of an equal item will still be forgotten. -/
def isCounted (s : Lane α) (x : α) : Bool :=
  (s.posting ++ s.coming ++ s.queue.dirty ++ s.desk.counted?.toList).contains x

/-! ## Marks -/

/-- **Mark** of a move. -/
inductive Mark (α : Type) where
  /-- The producer is called for an item; the last part says whether an equal one is under way then. -/
  | called (x : α) (overlapping : Bool)
  | added (x : α)
  /-- The queue is shut down, and does not take the item. -/
  | refused (x : α)
  /-- An item lands; the last part holds the items that still wait although their timers come before. -/
  | landed (x : α) (overtaken : List α)
  /-- The consumer deals with an item. -/
  | dealt (x : α)
  deriving DecidableEq, Repr

/-- **The marks of a move.** -/
def marks (s : Lane α) : Move α → List (Mark α)
  | .rate x => [.called x (s.isBusy x)]
  | .post =>
    match s.outbox with
    | none => []
    | some (x, _) => if s.queue.closed then [.refused x] else [.added x]
  | .land i =>
    match s.pending[i]? with
    | none => []
    | some u =>
      [.landed u.item ((ahead (s.pending.take i) u (s.pending.drop (i + 1))).map Pending.item)]
  | .deal =>
    match s.desk with
    | .fresh x => [.dealt x]
    | _ => []
  | _ => []

/-- The marks of a run. -/
def history (s : Lane α) (ms : List (Move α)) : List (Mark α) :=
  (machine α).log marks s ms

/-- The item that a mark says is added. -/
def Mark.added? : Mark α → Option α
  | .added x => some x
  | _ => none

/-- The item that a mark says is dealt with. -/
def Mark.dealt? : Mark α → Option α
  | .dealt x => some x
  | _ => none

/-! ## What holds at every moment -/

variable {s : Lane α}

/-- **Sound**: the lists of the queue fit together, what it holds to be in hand is on the desk, it counts
what has to wait, and as long as it is open failures are counted only of items that are under way. -/
structure Sound (s : Lane α) : Prop where
  queue : s.queue.Sound
  in_hand : s.queue.processing = s.desk.item?.toList
  delayed : s.queue.delayed = s.pending.length
  counted : s.queue.closed = false → ∀ x, 0 < s.queue.backoff.count x → s.isCounted x = true

/-- What becomes of an item that is added, by the part of the lane in which it is afterwards. -/
theorem post_cases {x : α} {wait : Duration} (h : s.outbox = some (x, wait)) :
    (wait.nanos = 0 ∧ s.queue.closed = false ∧
      s.post = { s with queue := s.queue.push x, outbox := none }) ∨
    (wait.nanos ≠ 0 ∧ s.queue.closed = false ∧
      s.post = { s with
        queue := s.queue.announce
        outbox := none
        pending := s.pending ++ [⟨s.now + wait.ceilMillis, x⟩] }) ∨
    (s.queue.closed = true ∧ s.post = { s with outbox := none }) := by
  unfold post
  simp only [h, addAfter, admission, add]
  by_cases hwait : wait.nanos = 0
  · cases hclosed : s.queue.closed with
    | true =>
      refine .inr (.inr ⟨rfl, ?_⟩)
      simp [hwait]
    | false =>
      refine .inl ⟨hwait, rfl, ?_⟩
      simp [hwait]
  · cases hclosed : s.queue.closed with
    | true =>
      refine .inr (.inr ⟨rfl, ?_⟩)
      simp [hwait]
    | false =>
      refine .inr (.inl ⟨hwait, rfl, ?_⟩)
      simp [hwait]

/-- An item that lands is one of those that wait, and its wait is over. -/
theorem land_cases {i : Nat} (ha : s.allows (.land i) = true) :
    ∃ before u after, s.pending = before ++ u :: after ∧ u.due ≤ s.now ∧
      s.land i = { s with queue := s.queue.land u.item, pending := before ++ after } ∧
      s.marks (.land i) = [.landed u.item ((ahead before u after).map Pending.item)] := by
  cases hu : s.pending[i]? with
  | none => simp [allows, hu] at ha
  | some u =>
    obtain ⟨hi, hget⟩ := List.getElem?_eq_some_iff.mp hu
    have hdue : u.due ≤ s.now := by simpa [allows, hu] using ha
    refine ⟨s.pending.take i, u, s.pending.drop (i + 1), ?_, hdue, ?_, ?_⟩
    · rw [← hget, List.getElem_cons_drop, List.take_append_drop]
    · simp only [land, hu, List.eraseIdx_eq_take_drop_succ]
    · simp only [marks, hu]

/-- The consumer finds nothing, or the first item that waits. -/
theorem take_cases (s : Lane α) :
    (s.queue.waiting = [] ∧ s.take = s) ∨
      ∃ x rest, s.queue.waiting = x :: rest ∧
        s.take = { s with queue := s.queue.take, desk := .fresh x } := by
  unfold take
  cases hw : s.queue.waiting with
  | nil =>
    refine .inl ⟨rfl, ?_⟩
    rw [hand_of_empty hw]
    cases s.queue.closed && s.queue.delayed == 0 <;> rfl
  | cons x rest =>
    refine .inr ⟨x, rest, rfl, ?_⟩
    rw [(s.queue.hand_eq_item_iff x).mpr ⟨rest, hw⟩]

theorem isBusy_iff (s : Lane α) (x : α) :
    s.isBusy x = true ↔ s.coming.contains x = true ∨ s.queue.dirty.contains x = true ∨
      s.desk.item?.toList.contains x = true := by
  simp only [isBusy, List.contains_append, Bool.or_eq_true, or_assoc]

theorem isCounted_iff (s : Lane α) (x : α) :
    s.isCounted x = true ↔ s.posting.contains x = true ∨ s.coming.contains x = true ∨
      s.queue.dirty.contains x = true ∨ s.desk.counted?.toList.contains x = true := by
  simp only [isCounted, List.contains_append, Bool.or_eq_true, or_assoc]

theorem isAwaited_iff (s : Lane α) (x : α) :
    s.isAwaited x = true ↔ s.coming.contains x = true ∨ s.queue.dirty.contains x = true ∨
      s.desk.fresh?.toList.contains x = true := by
  simp only [isAwaited, List.contains_append, Bool.or_eq_true, or_assoc]

/-- What is on its way lands or stays on its way. -/
theorem contains_coming_of_land {before after : List (Pending α)} {u : Pending α}
    (hpending : s.pending = before ++ u :: after) (x : α) :
    s.coming.contains x = (x == u.item || ((before ++ after).map Pending.item).contains x) := by
  unfold coming
  rw [hpending]
  simp only [List.map_append, List.map_cons, List.contains_append, List.contains_cons]
  exact Bool.or_left_comm _ _ _

namespace Sound

theorem start (name : String) (base max : Duration) : (Lane.start name base max : Lane α).Sound :=
  ⟨.new name base max, rfl, rfl, fun _ _ h => absurd h (Nat.lt_irrefl 0)⟩

/-- As long as the queue is open, an item that has failures is under way or about to be added. -/
theorem isBusy_of_count (h : s.Sound) (hopen : s.queue.closed = false) (hout : s.outbox = none) {x : α}
    (hcount : 0 < s.queue.backoff.count x) : s.isBusy x = true := by
  rw [isBusy_iff]
  rcases (isCounted_iff s x).mp (h.counted hopen x hcount) with hposting | hcoming | hdirty | hdesk
  · simp [posting, hout] at hposting
  · exact .inl hcoming
  · exact .inr (.inl hdirty)
  · cases hs : s.desk with
    | free => simp [hs, Desk.counted?] at hdesk
    | forgotten y => simp [hs, Desk.counted?] at hdesk
    | fresh y => exact .inr (.inr (by simpa [hs, Desk.counted?, Desk.item?] using hdesk))
    | dealt y => exact .inr (.inr (by simpa [hs, Desk.counted?, Desk.item?] using hdesk))

/-- An item that waits is under way. -/
theorem isBusy_of_waiting (h : s.Sound) {x : α} (hx : s.queue.waiting.contains x = true) :
    s.isBusy x = true := by
  rw [h.queue.waits, Bool.and_eq_true] at hx
  exact (isBusy_iff s x).mpr (.inr (.inl hx.1))

variable [EquivBEq α]

/-- The producer determines how long an item waits. -/
theorem rate (h : s.Sound) (ha : s.outbox = none) (x : α) : (s.next (.rate x)).Sound := by
  refine ⟨h.queue.recordFailure x, h.in_hand, h.delayed, fun hopen y hy => ?_⟩
  have hcount : (s.next (.rate x)).queue.backoff.count y = _ := Backoff.count_record _ x y
  rw [isCounted_iff]
  by_cases hyx : (y == x) = true
  · exact .inl (by simp [posting, next, hyx])
  · rw [hcount, if_neg hyx] at hy
    rcases (isCounted_iff s y).mp (h.counted hopen y hy) with hposting | hrest
    · simp [posting, ha] at hposting
    · exact .inr hrest

/-- The producer adds its item. -/
theorem post (h : s.Sound) {x : α} {wait : Duration} (ha : s.outbox = some (x, wait)) :
    s.post.Sound := by
  have hposting (y : α) : s.posting.contains y = (y == x) := by simp [posting, ha]
  rcases post_cases ha with ⟨-, hopen, hpost⟩ | ⟨-, hopen, hpost⟩ | ⟨hclosed, hpost⟩
  · rw [hpost]
    refine ⟨h.queue.push x, ?_, ?_, fun _ y hy => ?_⟩
    · rw [processing_push]
      exact h.in_hand
    · rw [delayed_push]
      exact h.delayed
    · rw [backoff_push] at hy
      rw [isCounted_iff, dirty_push, Bool.or_eq_true]
      rcases (isCounted_iff s y).mp (h.counted hopen y hy) with hx | hcoming | hdirty | hdesk
      · exact .inr (.inr (.inl (.inr (hposting y ▸ hx))))
      · exact .inr (.inl hcoming)
      · exact .inr (.inr (.inl (.inl hdirty)))
      · exact .inr (.inr (.inr hdesk))
  · rw [hpost]
    refine ⟨h.queue.announce, h.in_hand, ?_, fun _ y hy => ?_⟩
    · simp [announce, h.delayed]
    · have hcoming' : (s.pending ++ [⟨s.now + wait.ceilMillis, x⟩] : List (Pending α)).map Pending.item
          = s.coming ++ [x] := List.map_append
      rw [isCounted_iff, coming, hcoming', List.contains_append, Bool.or_eq_true]
      rcases (isCounted_iff s y).mp (h.counted hopen y hy) with hx | hcoming | hrest
      · exact .inr (.inl (.inr (by simpa [hposting] using hx)))
      · exact .inr (.inl (.inl hcoming))
      · exact .inr (.inr hrest)
  · rw [hpost]
    exact ⟨h.queue, h.in_hand, h.delayed, fun hopen => absurd (hclosed.symm.trans hopen) (by simp)⟩

/-- An item lands. -/
theorem land (h : s.Sound) {i : Nat} (ha : s.allows (.land i) = true) : (s.land i).Sound := by
  obtain ⟨before, u, after, hpending, -, hland, -⟩ := land_cases ha
  rw [hland]
  refine ⟨h.queue.land u.item, ?_, ?_, fun hopen y hy => ?_⟩
  · rw [processing_land]
    exact h.in_hand
  · have hlength : s.pending.length = (before ++ after).length + 1 := by
      rw [hpending]
      simp
      omega
    rw [delayed_land, h.delayed, hlength, Nat.add_sub_cancel]
  · rw [backoff_land] at hy
    rw [closed_land] at hopen
    have hdirty : (s.queue.land u.item).dirty.contains y = (s.queue.dirty.contains y || y == u.item) :=
      dirty_push _ _ _
    rw [isCounted_iff, hdirty, Bool.or_eq_true]
    rcases (isCounted_iff s y).mp (h.counted hopen y hy) with hposting | hcoming | hdirty | hdesk
    · exact .inl hposting
    · rw [contains_coming_of_land hpending, Bool.or_eq_true] at hcoming
      rcases hcoming with hu | hrest
      · exact .inr (.inr (.inl (.inr hu)))
      · exact .inr (.inl hrest)
    · exact .inr (.inr (.inl (.inl hdirty)))
    · exact .inr (.inr (.inr hdesk))

/-- The consumer, whose desk is free, takes the first item that waits. -/
theorem take (h : s.Sound) (ha : s.desk = .free) : s.take.Sound := by
  rcases take_cases s with ⟨-, htake⟩ | ⟨x, rest, hw, htake⟩
  · rw [htake]
    exact h
  · rw [htake]
    have hhand : s.queue.processing = [] := by rw [h.in_hand, ha]; rfl
    refine ⟨h.queue.take, ?_, ?_, fun hopen y hy => ?_⟩
    · rw [processing_take hw, hhand]
      rfl
    · rw [delayed_take hw]
      exact h.delayed
    · rw [backoff_take] at hy
      rw [closed_take hw] at hopen
      rw [isCounted_iff, dirty_take hw, contains_without]
      rcases (isCounted_iff s y).mp (h.counted hopen y hy) with hposting | hcoming | hdirty | hdesk
      · exact .inl hposting
      · exact .inr (.inl hcoming)
      · by_cases hyx : (y == x) = true
        · exact .inr (.inr (.inr (by simp [Desk.counted?, hyx])))
        · exact .inr (.inr (.inl (by simp only [hdirty, hyx, Bool.not_false, Bool.and_self])))
      · simp [ha, Desk.counted?] at hdesk

/-- The consumer forgets the failures of its item. -/
theorem forget (h : s.Sound) {x : α} (ha : s.desk = .dealt x) : (s.next .forget).Sound := by
  have hforget : s.next .forget = { s with queue := s.queue.forget x, desk := .forgotten x } := by
    simp only [Lane.next, ha]
  rw [hforget]
  refine ⟨h.queue.forget x, ?_, h.delayed, fun hopen y hy => ?_⟩
  · show s.queue.processing = _
    rw [h.in_hand, ha]
    rfl
  · have hcount : (s.queue.forget x).backoff.count y = _ := Backoff.count_forget _ x y
    rw [hcount] at hy
    by_cases hyx : (y == x) = true
    · rw [if_pos hyx] at hy
      exact absurd hy (Nat.lt_irrefl 0)
    · rw [if_neg hyx] at hy
      rw [isCounted_iff]
      rcases (isCounted_iff s y).mp (h.counted hopen y hy) with hposting | hcoming | hdirty | hdesk
      · exact .inl hposting
      · exact .inr (.inl hcoming)
      · exact .inr (.inr (.inl hdirty))
      · simp [ha, Desk.counted?, hyx] at hdesk

/-- The consumer is done with its item. -/
theorem done (h : s.Sound) {x : α} (ha : s.desk = .forgotten x) : (s.next .done).Sound := by
  have hdone : s.next .done = { s with queue := s.queue.done x, desk := .free } := by
    simp only [Lane.next, ha]
  have hhand : s.queue.processing = [x] := by rw [h.in_hand, ha]; rfl
  rw [hdone]
  refine ⟨h.queue.done (by simp [hhand]), ?_, h.delayed, fun hopen y hy => ?_⟩
  · show (s.queue.processing.filter fun z => !(z == x)) = []
    simp [hhand]
  · rw [isCounted_iff]
    rcases (isCounted_iff s y).mp (h.counted hopen y hy) with hposting | hcoming | hdirty | hdesk
    · exact .inl hposting
    · exact .inr (.inl hcoming)
    · exact .inr (.inr (.inl hdirty))
    · simp [ha, Desk.counted?] at hdesk

/-- **Every allowed move keeps a lane sound.** -/
theorem next (h : s.Sound) (m : Move α) (ha : s.allows m = true) : (s.next m).Sound := by
  cases m with
  | pass millis => exact ⟨h.queue, h.in_hand, h.delayed, h.counted⟩
  | rate x => exact h.rate (Option.isNone_iff_eq_none.mp ha) x
  | post =>
    obtain ⟨⟨x, wait⟩, hout⟩ := Option.isSome_iff_exists.mp ha
    exact h.post hout
  | land i => exact h.land ha
  | take =>
    cases hdesk : s.desk with
    | free => exact h.take hdesk
    | _ => simp [allows, hdesk] at ha
  | deal =>
    cases hdesk : s.desk with
    | fresh x =>
      have hdeal : s.next .deal = { s with desk := .dealt x } := by simp only [Lane.next, hdesk]
      rw [hdeal]
      refine ⟨h.queue, by rw [h.in_hand, hdesk]; rfl, h.delayed, fun hopen y hy => ?_⟩
      have hcounted := h.counted hopen y hy
      rw [isCounted_iff, hdesk] at hcounted
      rw [isCounted_iff]
      exact hcounted
    | _ => simp [allows, hdesk] at ha
  | forget =>
    cases hdesk : s.desk with
    | dealt x => exact h.forget hdesk
    | _ => simp [allows, hdesk] at ha
  | done =>
    cases hdesk : s.desk with
    | forgotten x => exact h.done hdesk
    | _ => simp [allows, hdesk] at ha
  | shutDown =>
    refine ⟨h.queue.shutDown, h.in_hand, h.delayed, fun hopen => ?_⟩
    exact absurd hopen (by simp [Lane.next, WorkQueue.shutDown])

/-- Every legal run keeps a lane sound. -/
theorem run (h : s.Sound) {ms : List (Move α)} (hl : (machine α).legal s ms = true) :
    ((machine α).run s ms).Sound :=
  (machine α).run_keeps (P := Lane.Sound) (fun _ m hs ha => hs.next m ha) h hl

end Sound

end Lane

end BorderSync.WorkQueue
