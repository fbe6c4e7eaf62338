/-
# BorderSync.Proofs.Queue.Line -- that items of one kind stay in line

What is under way of one kind forms a line: what the consumer has on its desk, what waits in the queue,
what has to wait for a timer, and what the producer is about to add. As long as no item of the kind is added
while an equal one is under way, all items of the kind wait equally long, and none of them becomes one with
another. If the timers of the kind are served in turn as well, every move leaves the line as it is, or puts
something at its end, or takes something from its front.
-/
import BorderSync.Proofs.Queue.Lane

namespace BorderSync.WorkQueue.Lane

variable {α : Type} [BEq α] {s : Lane α} {p : α → Bool}

/-- The items of one kind that were added, in order. -/
def added (p : α → Bool) (l : List (Mark α)) : List α :=
  (l.filterMap Mark.added?).filter p

/-- The items of one kind that were dealt with, in order. -/
def dealt (p : α → Bool) (l : List (Mark α)) : List α :=
  (l.filterMap Mark.dealt?).filter p

/-- The items of one kind that were added and not dealt with, in the order in which they will be. -/
def underWay (p : α → Bool) (s : Lane α) : List α :=
  (s.desk.fresh?.toList ++ s.queue.waiting ++ s.coming).filter p

/-- **In turn**: no item of one kind lands while another one of the kind, whose timer comes before, still
waits. -/
def InTurn (p : α → Bool) (l : List (Mark α)) : Prop :=
  ∀ x overtaken, .landed x overtaken ∈ l → p x = true → ∀ y ∈ overtaken, p y = false

/-- Nothing of one kind is on its way, in the queue, or on the desk. -/
def isQuiet (p : α → Bool) (s : Lane α) : Bool :=
  (s.posting ++ s.coming ++ s.queue.dirty ++ s.desk.item?.toList).all fun x => !p x

omit [BEq α] in
theorem added_append (l l' : List (Mark α)) : added p (l ++ l') = added p l ++ added p l' := by
  unfold added
  rw [List.filterMap_append, List.filter_append]

omit [BEq α] in
theorem dealt_append (l l' : List (Mark α)) : dealt p (l ++ l') = dealt p l ++ dealt p l' := by
  unfold dealt
  rw [List.filterMap_append, List.filter_append]

/-! ## The line -/

/-- All items of one kind that are under way, from the front of the line to its end. -/
def line (p : α → Bool) (s : Lane α) : List α :=
  (s.desk.item?.toList ++ s.queue.waiting ++ s.coming ++ s.posting).filter p

/-- **In line**: no two items of the kind are equal, none of them is kept back for an equal one in hand,
and their timers were started in the order in which they are due. -/
structure InLine (p : α → Bool) (s : Lane α) : Prop where
  once : OnceEach (s.line p)
  not_kept_back : ∀ x, p x = true → s.queue.dirty.contains x = true →
    s.queue.processing.contains x = false
  sorted : (s.pending.filter fun t => p t.item).Pairwise fun a b => a.due ≤ b.due
  /-- None is due later than an item would be that is added now. -/
  soon : ∀ t ∈ s.pending, p t.item = true →
    t.due ≤ s.now + (s.queue.backoff.delay 0).ceilMillis ∧ (s.queue.backoff.delay 0).nanos ≠ 0
  /-- What is about to be added waits as if it had never failed. -/
  fresh : s.queue.closed = false → ∀ x wait, s.outbox = some (x, wait) → p x = true →
    wait = s.queue.backoff.delay 0

/-- Taking in an item of the kind that is not there puts it at the end of those that wait; taking in an
item of another kind changes nothing for this one. -/
theorem filter_waiting_push {q : WorkQueue α} {x : α} (h : p x = true → q.enters x = true) :
    (q.push x).waiting.filter p = q.waiting.filter p ++ [x].filter p := by
  rw [waiting_push, List.filter_append]
  by_cases hx : p x = true
  · rw [if_pos (h hx)]
  · split <;> simp [hx]

/-- The same for an item that lands. -/
theorem filter_waiting_land {q : WorkQueue α} {x : α} (h : p x = true → q.enters x = true) :
    (q.land x).waiting.filter p = q.waiting.filter p ++ [x].filter p :=
  filter_waiting_push (q := { q with delayed := q.delayed - 1 }) h

omit [BEq α] in
/-- The items on their way, by what lands. -/
theorem filter_coming (hsorted : (s.pending.filter fun t => p t.item).Pairwise fun a b => a.due ≤ b.due)
    {before after : List (Pending α)} {u : Pending α} (hpending : s.pending = before ++ u :: after)
    (hturn : p u.item = true → ∀ t ∈ ahead before u after, p t.item = false) :
    s.coming.filter p = [u.item].filter p ++ ((before ++ after).map Pending.item).filter p := by
  have hmap (ts : List (Pending α)) :
      (ts.map Pending.item).filter p = (ts.filter fun t => p t.item).map Pending.item := by
    rw [List.filter_map]
    rfl
  have hcoming : s.coming = before.map Pending.item ++ [u.item] ++ after.map Pending.item := by
    unfold coming
    rw [hpending, List.map_append, List.map_cons, List.append_cons]
  rw [hcoming, List.map_append]
  simp only [List.filter_append]
  by_cases hu : p u.item = true
  · rw [hpending] at hsorted
    have hnone : (before.map Pending.item).filter p = [] := by
      rw [hmap, filter_before hsorted hu (hturn hu), List.map_nil]
    rw [hnone, List.nil_append, List.nil_append]
  · have hother : [u.item].filter p = [] := List.filter_cons_of_neg hu
    rw [hother, List.append_nil, List.nil_append]

omit [BEq α] in
theorem filter_other {x : α} (h : ¬ p x = true) : [x].filter p = [] :=
  List.filter_cons_of_neg h

omit [BEq α] in
/-- Either no item of the kind is on its way, or the one that comes is of another kind. -/
theorem filter_comm {xs : List α} {x : α} (h : p x = true → xs.filter p = []) :
    [x].filter p ++ xs.filter p = xs.filter p ++ [x].filter p := by
  by_cases hx : p x = true
  · rw [h hx, List.nil_append, List.append_nil]
  · rw [filter_other hx, List.nil_append, List.append_nil]

namespace InLine

/-- What is in the line is under way, if nothing is about to be added. -/
theorem isBusy_of_line (hs : s.Sound) (hout : s.outbox = none) {x : α}
    (hx : (s.line p).contains x = true) : s.isBusy x = true := by
  obtain ⟨y, hy, hxy⟩ := List.contains_iff_exists_mem_beq.mp hx
  have hcontains {xs : List α} (hmem : y ∈ xs) : xs.contains x = true :=
    List.contains_iff_exists_mem_beq.mpr ⟨y, hmem, hxy⟩
  have hmem := (List.mem_filter.mp hy).1
  simp only [posting, hout, Option.toList_none, List.map_nil, List.append_nil, List.mem_append] at hmem
  rcases hmem with (hdesk | hwaiting) | hcoming
  · exact (isBusy_iff s x).mpr (.inr (.inr (hcontains hdesk)))
  · exact hs.isBusy_of_waiting (hcontains hwaiting)
  · exact (isBusy_iff s x).mpr (.inl (hcontains hcoming))

/-- An item that waits goes from the end of the line to the end of those that wait for a timer. -/
theorem announce (h : InLine p s) {x : α} {wait : Duration} (hout : s.outbox = some (x, wait))
    (hopen : s.queue.closed = false) (hwait : wait.nanos ≠ 0) {t : Lane α}
    (ht : t = { s with
      queue := s.queue.announce
      outbox := none
      pending := s.pending ++ [⟨s.now + wait.ceilMillis, x⟩] }) :
    InLine p t ∧ t.underWay p = s.underWay p ++ [x].filter p := by
  have hcoming : t.coming = s.coming ++ [x] := by
    rw [ht]
    exact List.map_append
  have hline : t.line p = s.line p := by
    unfold line
    rw [hcoming, ht]
    simp [posting, WorkQueue.announce, hout]
  refine ⟨⟨?_, ?_, ?_, ?_, ?_⟩, ?_⟩
  · rw [hline]
    exact h.once
  · rw [ht]
    exact h.not_kept_back
  · rw [ht, List.filter_append]
    refine List.pairwise_append.mpr ⟨h.sorted, ?_, ?_⟩
    · exact (List.pairwise_singleton _ _).sublist List.filter_sublist
    · -- all that wait were started no later, and with the same wait
      intro a ha b hb
      obtain ⟨ha, hpa⟩ := List.mem_filter.mp ha
      obtain ⟨hb, hpb⟩ := List.mem_filter.mp hb
      obtain rfl := List.mem_singleton.mp hb
      show a.due ≤ s.now + wait.ceilMillis
      rw [h.fresh hopen x wait hout hpb]
      exact (h.soon a ha hpa).1
  · rw [ht]
    intro a ha hpa
    rcases List.mem_append.mp ha with ha | ha
    · exact h.soon a ha hpa
    · obtain rfl := List.mem_singleton.mp ha
      have hfresh := h.fresh hopen x wait hout hpa
      exact ⟨hfresh ▸ Nat.le_refl _, hfresh ▸ hwait⟩
  · rw [ht]
    intro _ y w hy
    exact absurd hy (by simp)
  · unfold underWay
    rw [hcoming, ht, ← List.append_assoc, List.filter_append]
    rfl

variable [EquivBEq α]

/-- What is on its way, and of the kind, enters the queue. -/
theorem enters (hp : Coarse p) (hs : s.Sound) (h : InLine p s) {x : α} (hx : p x = true)
    (hmem : x ∈ s.coming ++ s.posting) : s.queue.enters x = true := by
  -- nothing in front of it is equal to it
  have hfront : ∀ y ∈ s.desk.item?.toList ++ s.queue.waiting, (x == y) = true → False := by
    intro y hy hxy
    have honce := h.once
    unfold line at honce
    rw [List.append_assoc, List.filter_append] at honce
    have hne := (List.pairwise_append.mp honce).2.2 y
      (List.mem_filter.mpr ⟨hy, hp x y hxy ▸ hx⟩) x (List.mem_filter.mpr ⟨hmem, hx⟩)
    exact Bool.false_ne_true (hne.symm.trans (BEq.symm hxy))
  have hprocessing : s.queue.processing.contains x = false := by
    refine Bool.eq_false_iff.mpr ?_
    intro hc
    rw [hs.in_hand] at hc
    obtain ⟨y, hy, hxy⟩ := List.contains_iff_exists_mem_beq.mp hc
    exact hfront y (List.mem_append_left _ hy) hxy
  have hdirty : s.queue.dirty.contains x = false := by
    refine Bool.eq_false_iff.mpr ?_
    intro hc
    have hwaits := hs.queue.waits x
    rw [hc, hprocessing] at hwaits
    obtain ⟨y, hy, hxy⟩ := List.contains_iff_exists_mem_beq.mp hwaits
    exact hfront y (List.mem_append_right _ hy) hxy
  simp only [WorkQueue.enters, hdirty, hprocessing, Bool.not_false, Bool.and_self]

/-- Taking in an item that enters keeps none of the kind back. -/
theorem not_kept_back_push (hp : Coarse p) (h : InLine p s) {x : α}
    (henters : p x = true → s.queue.enters x = true) {y : α} (hy : p y = true)
    (hdirty : (s.queue.dirty.contains y || y == x) = true) :
    s.queue.processing.contains y = false := by
  rcases Bool.or_eq_true_iff.mp hdirty with hdirty | hyx
  · exact h.not_kept_back y hy hdirty
  · have hx := henters (hp y x hyx ▸ hy)
    rw [List.contains_congr hyx]
    simp only [WorkQueue.enters, Bool.and_eq_true, Bool.not_eq_true'] at hx
    exact hx.2

/-- The producer is called for an item of another kind, or when no equal one is under way. -/
theorem rate (hs : s.Sound) (h : InLine p s) (hout : s.outbox = none) {x : α}
    (hfree : s.isBusy x = true → p x = false) : InLine p (s.next (.rate x)) := by
  have hline : (s.next (.rate x)).line p = s.line p ++ [x].filter p := by
    unfold line posting
    rw [hout, ← List.filter_append]
    simp [next, coming, recordFailure]
  have hbusy (hx : p x = true) : ¬ s.isBusy x = true := fun hb =>
    Bool.false_ne_true ((hfree hb).symm.trans hx)
  refine ⟨?_, h.not_kept_back, h.sorted, h.soon, ?_⟩
  · rw [hline]
    by_cases hx : p x = true
    · rw [List.filter_cons_of_pos hx]
      exact h.once.concat (Bool.eq_false_iff.mpr fun hc => hbusy hx (isBusy_of_line hs hout hc))
    · rw [filter_other hx, List.append_nil]
      exact h.once
  · intro hopen y wait hy hpy
    obtain ⟨rfl, rfl⟩ : x = y ∧ s.queue.backoff.wait x = wait := by simpa [next] using hy
    have hcount : s.queue.backoff.count x = 0 :=
      Nat.eq_zero_of_not_pos fun hpos => hbusy hpy (hs.isBusy_of_count hopen hout hpos)
    show s.queue.backoff.delay (s.queue.backoff.count x) = _
    rw [hcount]
    rfl

/-- An item that does not wait goes from the end of the line to the end of those in the queue. -/
theorem push (hp : Coarse p) (hs : s.Sound) (h : InLine p s) {x : α} {wait : Duration}
    (hout : s.outbox = some (x, wait)) (hopen : s.queue.closed = false) (hwait : wait.nanos = 0) :
    InLine p { s with queue := s.queue.push x, outbox := none } ∧
      { s with queue := s.queue.push x, outbox := none }.underWay p = s.underWay p ++ [x].filter p := by
  have hposting : s.posting = [x] := by simp [posting, hout]
  -- it finds nothing of its kind that waits for a timer
  have hnone (hx : p x = true) : s.coming.filter p = [] := by
    refine List.eq_nil_iff_forall_not_mem.mpr ?_
    intro y hy
    obtain ⟨hy, hpy⟩ := List.mem_filter.mp hy
    obtain ⟨t, ht, rfl⟩ := List.mem_map.mp hy
    exact (h.soon t ht hpy).2 (h.fresh hopen x wait hout hx ▸ hwait)
  have henters (hx : p x = true) := h.enters hp hs hx (by simp [hposting])
  have hwaiting := filter_waiting_push henters
  refine ⟨⟨?_, ?_, h.sorted, ?_, ?_⟩, ?_⟩
  · have honce := h.once
    unfold line at honce
    rw [hposting, List.filter_append, List.filter_append, List.append_assoc, ← filter_comm hnone] at honce
    show OnceEach ((s.desk.item?.toList ++ (s.queue.push x).waiting ++ s.coming ++ []).filter p)
    simpa only [List.filter_append, hwaiting, List.append_assoc, List.append_nil] using honce
  · intro y hy hdirty
    rw [processing_push]
    exact h.not_kept_back_push hp henters hy (dirty_push s.queue x y ▸ hdirty)
  · rw [backoff_push]
    exact h.soon
  · intro _ y w hy
    exact absurd hy (by simp)
  · show ((s.desk.fresh?.toList ++ (s.queue.push x).waiting ++ s.coming).filter p) = _
    unfold underWay
    simp only [List.filter_append, hwaiting, List.append_assoc]
    rw [filter_comm hnone]

/-- The producer adds its item, or the queue does not take it. -/
theorem post (hp : Coarse p) (hs : s.Sound) (h : InLine p s) {x : α} {wait : Duration}
    (hout : s.outbox = some (x, wait)) :
    InLine p s.post ∧ s.post.underWay p = s.underWay p ++ added p (s.marks .post) := by
  have hmarks : s.marks .post = if s.queue.closed then [.refused x] else [.added x] := by
    simp only [marks, hout]
  rw [hmarks]
  rcases post_cases hout with ⟨hwait, hopen, hpost⟩ | ⟨hwait, hopen, hpost⟩ | ⟨hclosed, hpost⟩
  · rw [hpost, hopen]
    exact h.push hp hs hout hopen hwait
  · rw [hopen]
    exact h.announce hout hopen hwait hpost
  · rw [hpost, hclosed]
    refine ⟨⟨?_, h.not_kept_back, h.sorted, h.soon, ?_⟩, (List.append_nil _).symm⟩
    · refine h.once.sublist (List.Sublist.filter _ ?_)
      show (s.desk.item?.toList ++ s.queue.waiting ++ s.coming ++ []).Sublist _
      rw [List.append_nil]
      exact List.sublist_append_left _ _
    · intro _ y w hy
      exact absurd hy (by simp)

/-- An item lands in turn: what comes first in the line joins those that wait. -/
theorem land (hp : Coarse p) (hs : s.Sound) (h : InLine p s) {i : Nat} (ha : s.allows (.land i) = true)
    (hturn : InTurn p (s.marks (.land i))) :
    InLine p (s.land i) ∧ (s.land i).underWay p = s.underWay p := by
  obtain ⟨before, u, after, hpending, -, hland, hmarks⟩ := land_cases ha
  have hahead : p u.item = true → ∀ t ∈ ahead before u after, p t.item = false := fun hu t ht =>
    hturn _ _ (hmarks ▸ List.mem_singleton_self _) hu _ (List.mem_map_of_mem ht)
  have hcoming := filter_coming h.sorted hpending hahead
  have hsublist : (before ++ after).Sublist s.pending := by
    rw [hpending]
    exact (List.sublist_cons_self u after).append_left before
  have hmem : u.item ∈ s.coming ++ s.posting := by simp [coming, hpending]
  have henters (hu : p u.item = true) := h.enters hp hs hu hmem
  have hwaiting := filter_waiting_land henters
  rw [hland]
  refine ⟨⟨?_, ?_, ?_, ?_, ?_⟩, ?_⟩
  · have honce := h.once
    unfold line at honce
    rw [List.filter_append, List.filter_append, hcoming] at honce
    show OnceEach ((s.desk.item?.toList ++ (s.queue.land u.item).waiting ++ (before ++ after).map Pending.item
      ++ s.posting).filter p)
    simpa only [List.filter_append, hwaiting, List.append_assoc] using honce
  · intro y hy hdirty
    rw [processing_land]
    exact h.not_kept_back_push hp henters hy
      ((dirty_push { s.queue with delayed := s.queue.delayed - 1 } u.item y).symm.trans hdirty)
  · exact h.sorted.sublist (hsublist.filter _)
  · rw [backoff_land]
    exact fun t ht => h.soon t (hsublist.subset ht)
  · rw [closed_land, backoff_land]
    exact h.fresh
  · show ((s.desk.fresh?.toList ++ (s.queue.land u.item).waiting
      ++ (before ++ after).map Pending.item).filter p) = _
    unfold underWay
    rw [List.filter_append _ s.coming, hcoming]
    simp only [List.filter_append, hwaiting, List.append_assoc]

/-- The consumer, whose desk is free, takes what is first in the line. -/
theorem take (hs : s.Sound) (h : InLine p s) (ha : s.desk = .free) :
    InLine p s.take ∧ s.take.underWay p = s.underWay p := by
  rcases take_cases s with ⟨-, htake⟩ | ⟨x, rest, hw, htake⟩
  · rw [htake]
    exact ⟨h, rfl⟩
  · have hhand : s.queue.processing = [] := by rw [hs.in_hand, ha]; rfl
    rw [htake]
    refine ⟨⟨?_, ?_, h.sorted, ?_, ?_⟩, ?_⟩
    · have honce := h.once
      unfold line at honce
      rw [ha, hw] at honce
      show OnceEach (([x] ++ s.queue.take.waiting ++ s.coming ++ s.posting).filter p)
      rw [waiting_take hw]
      exact honce
    · intro y hy hdirty
      rw [dirty_take hw, contains_without, Bool.and_eq_true, Bool.not_eq_true'] at hdirty
      simp [processing_take hw, hhand, hdirty.2]
    · rw [backoff_take]
      exact h.soon
    · rw [closed_take hw, backoff_take]
      exact h.fresh
    · show (([x] ++ s.queue.take.waiting ++ s.coming).filter p) = _
      unfold underWay
      rw [waiting_take hw, ha, hw]
      rfl

/-- The consumer is done with its item, which is out of the line. -/
theorem done (hs : s.Sound) (h : InLine p s) {x : α} (ha : s.desk = .forgotten x) :
    InLine p (s.next .done) ∧ (s.next .done).underWay p = s.underWay p := by
  have hnext : s.next .done = { s with queue := s.queue.done x, desk := .free } := by
    simp only [Lane.next, ha]
  have hhand : s.queue.processing = [x] := by rw [hs.in_hand, ha]; rfl
  -- what is put in again is of another kind
  have hwaiting : (s.queue.done x).waiting.filter p = s.queue.waiting.filter p := by
    unfold WorkQueue.done
    simp only
    split
    · rename_i hdirty
      have hx : ¬ p x = true := by
        intro hx
        have hnot := h.not_kept_back x hx hdirty
        simp [hhand] at hnot
      rw [List.filter_append, filter_other hx, List.append_nil]
    · rfl
  rw [hnext]
  refine ⟨⟨?_, ?_, h.sorted, h.soon, h.fresh⟩, ?_⟩
  · refine h.once.sublist ?_
    show (([] ++ (s.queue.done x).waiting ++ s.coming ++ s.posting).filter p).Sublist _
    unfold line
    rw [List.nil_append, List.append_assoc, List.append_assoc, List.append_assoc, List.filter_append,
      hwaiting, ← List.filter_append, List.filter_append _ (s.queue.waiting ++ _)]
    exact List.sublist_append_right _ _
  · intro y _ _
    show (s.queue.processing.filter fun z => !(z == x)).contains y = false
    simp [hhand]
  · show (([] ++ (s.queue.done x).waiting ++ s.coming).filter p) = _
    unfold underWay
    rw [List.filter_append, List.nil_append, hwaiting, ha, ← List.filter_append]
    rfl

/-- **Every allowed move keeps the line**, if it is no call for an item of which an equal one is under
way, and no landing out of turn. What is dealt with comes from its front, what is added goes to its end. -/
theorem next (hp : Coarse p) (hs : s.Sound) (h : InLine p s) (m : Move α) (ha : s.allows m = true)
    (hfree : ∀ x, .called x true ∈ s.marks m → p x = false) (hturn : InTurn p (s.marks m)) :
    InLine p (s.next m) ∧
      s.underWay p ++ added p (s.marks m) = Lane.dealt p (s.marks m) ++ (s.next m).underWay p := by
  cases m with
  | pass millis =>
    refine ⟨⟨h.once, h.not_kept_back, h.sorted, fun t ht hpt => ?_, h.fresh⟩, List.append_nil _⟩
    obtain ⟨hdue, hnanos⟩ := h.soon t ht hpt
    exact ⟨Nat.le_trans hdue (Nat.add_le_add_right (Nat.le_add_right _ _) _), hnanos⟩
  | rate x =>
    refine ⟨h.rate hs (Option.isNone_iff_eq_none.mp ha) fun hbusy => hfree x ?_, List.append_nil _⟩
    rw [← hbusy]
    exact List.mem_singleton_self _
  | post =>
    obtain ⟨⟨x, wait⟩, hout⟩ := Option.isSome_iff_exists.mp ha
    obtain ⟨hnext, hunder⟩ := h.post hp hs hout
    refine ⟨hnext, ?_⟩
    have hdealt : Lane.dealt p (s.marks .post) = [] := by
      simp only [marks, hout]
      split <;> rfl
    rw [hdealt, List.nil_append]
    exact hunder.symm
  | land i =>
    obtain ⟨hnext, hunder⟩ := h.land hp hs ha hturn
    obtain ⟨_, u, _, -, -, -, hmarks⟩ := land_cases ha
    rw [hmarks]
    exact ⟨hnext, (List.append_nil _).trans hunder.symm⟩
  | take =>
    cases hdesk : s.desk with
    | free =>
      obtain ⟨hnext, hunder⟩ := h.take hs hdesk
      exact ⟨hnext, (List.append_nil _).trans hunder.symm⟩
    | _ => simp [allows, hdesk] at ha
  | deal =>
    cases hdesk : s.desk with
    | fresh x =>
      have hdeal : s.next .deal = { s with desk := .dealt x } := by simp only [Lane.next, hdesk]
      have hmarks : s.marks .deal = [.dealt x] := by simp only [marks, hdesk]
      rw [hdeal, hmarks]
      refine ⟨⟨?_, h.not_kept_back, h.sorted, h.soon, h.fresh⟩, ?_⟩
      · have honce := h.once
        unfold line at honce
        rw [hdesk] at honce
        exact honce
      · unfold underWay
        rw [hdesk, List.append_assoc, List.filter_append]
        exact List.append_nil _
    | _ => simp [allows, hdesk] at ha
  | forget =>
    cases hdesk : s.desk with
    | dealt x =>
      have hforget : s.next .forget = { s with queue := s.queue.forget x, desk := .forgotten x } := by
        simp only [Lane.next, hdesk]
      rw [hforget]
      refine ⟨⟨?_, h.not_kept_back, h.sorted, h.soon, h.fresh⟩, ?_⟩
      · have honce := h.once
        unfold line at honce
        rw [hdesk] at honce
        exact honce
      · unfold underWay
        rw [hdesk]
        exact List.append_nil _
    | _ => simp [allows, hdesk] at ha
  | done =>
    cases hdesk : s.desk with
    | forgotten x =>
      obtain ⟨hnext, hunder⟩ := h.done hs hdesk
      exact ⟨hnext, (List.append_nil _).trans hunder.symm⟩
    | _ => simp [allows, hdesk] at ha
  | shutDown =>
    refine ⟨⟨h.once, h.not_kept_back, h.sorted, h.soon, fun hopen => ?_⟩, List.append_nil _⟩
    exact absurd hopen (by simp [Lane.next, WorkQueue.shutDown])

/-- Nothing of the kind is under way: the line is empty. -/
theorem of_isQuiet (hp : Coarse p) (hs : s.Sound) (h : s.isQuiet p = true) :
    InLine p s ∧ s.underWay p = [] := by
  unfold isQuiet at h
  simp only [List.all_append, Bool.and_eq_true, List.all_eq_true, Bool.not_eq_true'] at h
  obtain ⟨⟨⟨hposting, hcoming⟩, hdirty⟩, hdesk⟩ := h
  have hnone {xs : List α} (hxs : ∀ x ∈ xs, p x = false) : xs.filter p = [] :=
    List.filter_eq_nil_iff.mpr fun x hx => by simp [hxs x hx]
  have hkind (x : α) (hx : s.queue.dirty.contains x = true) : p x = false := by
    obtain ⟨y, hy, hxy⟩ := List.contains_iff_exists_mem_beq.mp hx
    rw [hp x y hxy]
    exact hdirty y hy
  have hwaiting (x : α) (hx : x ∈ s.queue.waiting) : p x = false := by
    have hwaits := hs.queue.waits x
    rw [List.contains_iff_exists_mem_beq.mpr ⟨x, hx, BEq.rfl⟩, eq_comm, Bool.and_eq_true] at hwaits
    exact hkind x hwaits.1
  have hpending (t : Pending α) (ht : t ∈ s.pending) : p t.item = false :=
    hcoming t.item (List.mem_map_of_mem ht)
  have hfresh : s.desk.fresh?.toList.filter p = [] := by
    cases hs' : s.desk with
    | fresh x => exact hnone (by simpa [hs', Desk.item?, Desk.fresh?] using hdesk)
    | _ => rfl
  refine ⟨⟨?_, ?_, ?_, ?_, ?_⟩, ?_⟩
  · unfold line
    simp only [List.filter_append, hnone hdesk, hnone hwaiting, hnone hcoming, hnone hposting,
      List.append_nil]
    exact .nil
  · intro x hx hdirty
    exact absurd hx (by simp [hkind x hdirty])
  · rw [List.filter_eq_nil_iff.mpr fun t ht => by simp [hpending t ht]]
    exact .nil
  · intro t ht hpt
    exact absurd hpt (by simp [hpending t ht])
  · intro _ x wait hout hx
    exact absurd hx (by simp [hposting x (by simp [posting, hout])])
  · unfold underWay
    simp only [List.filter_append, hfresh, hnone hwaiting, hnone hcoming, List.append_nil]

/-- **What every move keeps of the line, every run keeps.** -/
theorem run (hp : Coarse p) (hs : s.Sound) (h : InLine p s) {ms : List (Move α)}
    (hl : (machine α).legal s ms = true)
    (hfree : ∀ x, .called x true ∈ s.history ms → p x = false) (hturn : InTurn p (s.history ms)) :
    s.underWay p ++ added p (s.history ms) =
      Lane.dealt p (s.history ms) ++ ((machine α).run s ms).underWay p := by
  induction ms generalizing s with
  | nil => exact List.append_nil _
  | cons m ms ih =>
    obtain ⟨ha, hl⟩ := ((machine α).legal_cons s m ms).mp hl
    have hhistory : s.history (m :: ms) = s.marks m ++ (s.next m).history ms := rfl
    rw [hhistory] at hfree hturn ⊢
    obtain ⟨hnext, hmove⟩ := h.next hp hs m ha (fun x hx => hfree x (List.mem_append_left _ hx))
      fun x overtaken hx => hturn x overtaken (List.mem_append_left _ hx)
    have hrest := ih (hs.next m ha) hnext hl (fun x hx => hfree x (List.mem_append_right _ hx))
      fun x overtaken hx => hturn x overtaken (List.mem_append_right _ hx)
    rw [added_append, dealt_append, ← List.append_assoc, hmove, List.append_assoc, hrest,
      List.append_assoc]
    rfl

end InLine

end BorderSync.WorkQueue.Lane
