/-
# BorderSync.Proofs.Delivery.Scatter -- sending the copies of one call

A call sends the copies of its updates one after the other, each with a drawn delay, while others use the same
queue: timers let items land, workers take them and are done with them, and other calls bring items of their
own. The queue holds equal items once, but it never makes two copies of one call into one: their ids differ,
and what was sent is handed out or still on its way, whatever the others do in between.
-/
import BorderSync.Delivery.Jitter
import BorderSync.Proofs.Crew.Shift
import BorderSync.Proofs.Delivery.Copies
import BorderSync.Proofs.Queue.Load
import BorderSync.Settings.Basic

namespace BorderSync

open Event

/-! ## What a move does to the load -/

namespace WorkQueue.Floor

variable {α : Type} [BEq α] {p : α → Bool} {s : Floor α}

/-- What a move hands out. -/
def handed? (s : Floor α) : Move α → Option α
  | .take =>
    match s.queue.hand with
    | .item x => some x
    | _ => none
  | _ => none

omit [BEq α] in
theorem handed?_take {x : α} {rest : List α} (h : s.queue.waiting = x :: rest) :
    s.handed? .take = some x := by
  unfold handed?
  rw [(s.queue.hand_eq_item_iff x).mpr ⟨rest, h⟩]

omit [BEq α] in
theorem handed?_take_of_empty (h : s.queue.waiting = []) : s.handed? .take = none := by
  unfold handed?
  rw [hand_of_empty h]
  cases s.queue.closed && s.queue.delayed == 0 <;> rfl

/-- **No move loses or doubles anything**, as long as the queue is open. What is on its way afterwards or handed
out was on its way or is brought; equal items may become one, but not less. -/
theorem load_next [EquivBEq α] (hp : Coarse p) (hs : s.Sound) (hopen : s.queue.closed = false) {m : Move α}
    (ha : s.allows m = true) :
    (s.next m).load p + (s.handed? m).toList.countP p ≤ s.load p + (Shift.brings? m).toList.countP p ∧
      (0 < s.load p + (Shift.brings? m).toList.countP p →
        0 < (s.next m).load p + (s.handed? m).toList.countP p) := by
  -- all that is brought is brought with a delay, which may be zero
  have hbring (t : Floor α) (ht : t.queue.closed = false) (x : α) (d : Duration) :
      (t.addAfter x d).load p ≤ t.load p + [x].countP p ∧
        (0 < t.load p + [x].countP p → 0 < (t.addAfter x d).load p) := by
    obtain ⟨hle, hle', hpos⟩ := load_addAfter hp t ht x d
    rw [List.countP_singleton]
    cases hx : p x with
    | false =>
      rw [hx, Bool.toNat_false] at hle'
      simp only [Bool.false_eq_true, if_false]
      exact ⟨hle', fun h => by omega⟩
    | true =>
      rw [hx, Bool.toNat_true] at hle'
      exact ⟨hle', fun _ => hpos hx⟩
  cases m with
  | add x => exact hbring s hopen x ⟨0⟩
  | addAfter x d => exact hbring s hopen x d
  | addRateLimited x => exact hbring { s with queue := s.queue.recordFailure x } hopen x _
  | recordFailure x => exact ⟨Nat.le_refl _, id⟩
  | forget x => exact ⟨Nat.le_refl _, id⟩
  | land x => exact load_land hp s ha
  | take =>
    cases hw : s.queue.waiting with
    | nil =>
      rw [handed?_take_of_empty hw, next, take_of_empty hw]
      exact ⟨Nat.le_refl _, id⟩
    | cons x rest =>
      have htake := load_take hp hs.queue hw
      have hcount : (some x).toList.countP p = (p x).toNat := by
        rw [Option.toList_some, List.countP_singleton]
        cases p x <;> rfl
      rw [handed?_take hw, hcount]
      show s.take.load p + (p x).toNat ≤ s.load p + 0 ∧ (0 < s.load p + 0 → 0 < s.take.load p + (p x).toNat)
      omega
  | done x => exact ⟨Nat.le_refl _, id⟩
  | shutDown => exact ⟨Nat.le_refl _, id⟩

end WorkQueue.Floor

/-! ## The machine -/

/-- **Scatter**: a queue with what is under way around it, and the copies of a call that are still to be sent. -/
structure Scatter where
  floor : WorkQueue.Floor Update
  unsent : List Update

namespace Scatter

/-- **Move**: the call sends its next copy, or somebody else uses the queue. -/
inductive Move where
  /-- The number picks the delay. -/
  | send (r : Nat)
  | other (m : WorkQueue.Move Update)

/-- **Mark** of a move. -/
inductive Mark where
  /-- The call adds a copy after a delay. -/
  | sent (u : Update) (delay : Duration)
  /-- Somebody else adds an update, for now or for later. -/
  | brought (u : Update)
  | handed (u : Update)
  deriving DecidableEq

/-- The delay that a number picks. -/
def delay (settings : Settings) (r : Nat) : Duration :=
  .ofMillis (Delivery.Jitter.draw settings.outbound.minJitter settings.outbound.maxJitter r)

/-- A call begins: a copy of every update is to be sent to every host. -/
def start (settings : Settings) (floor : WorkQueue.Floor Update) (updates : List Update)
    (token : Nat → Nat → String) : Scatter :=
  ⟨floor, Delivery.copies settings.hosts updates token⟩

/-- The state after a move. A copy that is addressed to nobody is dropped. -/
def next (settings : Settings) (s : Scatter) : Move → Scatter
  | .send r =>
    match s.unsent with
    | [] => s
    | u :: rest =>
      { floor := if u.host = "" then s.floor else s.floor.addAfter u (delay settings r)
        unsent := rest }
  | .other m => { s with floor := s.floor.next m }

/-- The others may do anything but shut the queue down. -/
def allows (s : Scatter) : Move → Bool
  | .send _ => !s.unsent.isEmpty
  | .other .shutDown => false
  | .other m => s.floor.allows m

/-- **The machine of a call** among others who use the queue. -/
def machine (settings : Settings) : Machine Scatter Move :=
  ⟨allows, next settings⟩

/-- The marks of a move. -/
def marks (settings : Settings) (s : Scatter) : Move → List Mark
  | .send r =>
    match s.unsent with
    | [] => []
    | u :: _ => if u.host = "" then [] else [.sent u (delay settings r)]
  | .other m =>
    (Shift.brings? m).toList.map Mark.brought ++ (s.floor.handed? m).toList.map Mark.handed

/-- The marks of a run. -/
def history (settings : Settings) (s : Scatter) (ms : List Move) : List Mark :=
  (machine settings).log (marks settings) s ms

/-- What the call sends, with the delay. -/
def sent? : Mark → Option (Update × Duration)
  | .sent u d => some (u, d)
  | _ => none

/-- What the call has sent, in order. -/
def sentIn (l : List Mark) : List (Update × Duration) :=
  l.filterMap sent?

/-- The call makes the move. -/
def Move.isSend : Move → Bool
  | .send _ => true
  | .other _ => false

/-- What the others do. -/
def others (ms : List Move) : List (WorkQueue.Move Update) :=
  ms.filterMap fun
    | .other m => some m
    | .send _ => none

variable (settings : Settings) {s : Scatter}

theorem sentIn_append (l l' : List Mark) : sentIn (l ++ l') = sentIn l ++ sentIn l' :=
  List.filterMap_append

/-! ## Single moves -/

/-- **Sound**: the queue is sound and open, and all copies are addressed to somebody. -/
structure Sound (s : Scatter) : Prop where
  floor : s.floor.Sound
  opened : s.floor.queue.closed = false
  addressed : ∀ u ∈ s.unsent, u.host ≠ ""

/-- The next copy is sent. -/
theorem next_send {u : Update} {rest : List Update} (hs : s.Sound) (hunsent : s.unsent = u :: rest) (r : Nat) :
    next settings s (.send r) = ⟨s.floor.addAfter u (delay settings r), rest⟩ ∧
      marks settings s (.send r) = [.sent u (delay settings r)] := by
  have hhost : u.host ≠ "" := hs.addressed u (by rw [hunsent]; exact List.mem_cons_self)
  unfold next marks
  rw [hunsent]
  simp only [if_neg hhost, and_self]

/-- What is left to send is there when something is sent. -/
theorem unsent_of_allows {r : Nat} (ha : s.allows (.send r) = true) : ∃ u rest, s.unsent = u :: rest := by
  cases hunsent : s.unsent with
  | nil =>
    unfold allows at ha
    rw [hunsent] at ha
    exact absurd ha Bool.false_ne_true
  | cons u rest => exact ⟨u, rest, rfl⟩

/-- The others leave the queue open. -/
theorem other_of_allows {m : WorkQueue.Move Update} (ha : s.allows (.other m) = true) :
    m ≠ .shutDown ∧ s.floor.allows m = true := by
  cases m with
  | shutDown => exact absurd ha Bool.false_ne_true
  | _ => exact ⟨by simp, ha⟩

/-- Only a shutdown closes a queue. -/
theorem closed_next {m : WorkQueue.Move Update} (hm : m ≠ .shutDown) (f : WorkQueue.Floor Update) :
    (f.next m).queue.closed = f.queue.closed := by
  cases m with
  | add x => exact WorkQueue.closed_add _ x
  | addAfter x d => exact WorkQueue.closed_addAfter _ x d
  | addRateLimited x => exact WorkQueue.closed_addAfter _ x _
  | land x => exact WorkQueue.closed_land _ x
  | take =>
    show f.queue.take.closed = f.queue.closed
    cases hw : f.queue.waiting with
    | nil => rw [WorkQueue.take_of_empty hw]
    | cons x rest => rw [WorkQueue.closed_take hw]
  | shutDown => exact absurd rfl hm
  | _ => rfl

/-- **Every allowed move keeps a scatter sound.** -/
theorem Sound.next (hs : s.Sound) {m : Move} (ha : s.allows m = true) : (next settings s m).Sound := by
  cases m with
  | send r =>
    obtain ⟨u, rest, hunsent⟩ := unsent_of_allows (r := r) ha
    rw [(next_send settings hs hunsent r).1]
    refine ⟨hs.floor.addAfter u _, ?_, ?_⟩
    · exact (WorkQueue.closed_addAfter s.floor.queue u _).trans hs.opened
    · intro v hv
      exact hs.addressed v (by rw [hunsent]; exact List.mem_cons_of_mem u hv)
  | other m =>
    obtain ⟨hm, ha⟩ := other_of_allows ha
    exact ⟨hs.floor.next m ha, (closed_next hm s.floor).trans hs.opened, hs.addressed⟩

/-- The others send nothing. -/
theorem sentIn_marks_other (m : WorkQueue.Move Update) : sentIn (marks settings s (.other m)) = [] := by
  unfold sentIn marks
  rw [List.filterMap_append, List.filterMap_map, List.filterMap_map]
  simp [Function.comp_def, sent?]

/-- A move sends what it takes from what is to be sent, and its delay is drawn. -/
theorem sentIn_marks (hs : s.Sound) {m : Move} (ha : s.allows m = true) :
    (sentIn (marks settings s m)).map Prod.fst ++ (next settings s m).unsent = s.unsent ∧
      ∀ e ∈ sentIn (marks settings s m), ∃ r, e.2 = delay settings r := by
  cases m with
  | send r =>
    obtain ⟨u, rest, hunsent⟩ := unsent_of_allows (r := r) ha
    obtain ⟨hnext, hmarks⟩ := next_send settings hs hunsent r
    rw [hnext, hmarks, hunsent]
    refine ⟨rfl, ?_⟩
    intro e he
    obtain rfl := List.mem_singleton.mp he
    exact ⟨r, rfl⟩
  | other m =>
    rw [sentIn_marks_other]
    exact ⟨rfl, fun e he => absurd he (by simp)⟩

/-! ## Counting one update -/

/-- How often an update was sent by the call. -/
def timesSent (u : Update) (l : List Mark) : Nat :=
  ((sentIn l).map Prod.fst).count u

theorem timesSent_append (u : Update) (l l' : List Mark) :
    timesSent u (l ++ l') = timesSent u l + timesSent u l' := by
  unfold timesSent
  rw [sentIn_append, List.map_append, List.count_append]

/-- Of the marks that the others leave, some bring an update and some hand it out. -/
theorem count_marks_other (u : Update) (m : WorkQueue.Move Update) :
    (marks settings s (.other m)).count (.brought u) = (Shift.brings? m).toList.countP (u == ·) ∧
      (marks settings s (.other m)).count (.handed u) = (s.floor.handed? m).toList.countP (u == ·) ∧
      timesSent u (marks settings s (.other m)) = 0 := by
  have hmarks : marks settings s (.other m) =
      (Shift.brings? m).toList.map Mark.brought ++ (s.floor.handed? m).toList.map Mark.handed := rfl
  rw [hmarks]
  generalize Shift.brings? m = x
  generalize s.floor.handed? m = y
  cases x <;> cases y <;>
    simp [timesSent, sentIn, sent?, List.filterMap_cons, List.count_cons, beq_eq_decide, eq_comm]

/-- **No move loses or doubles an update.** -/
theorem load_move (hs : s.Sound) {m : Move} (ha : s.allows m = true) (u : Update) :
    (next settings s m).floor.load (u == ·) + (marks settings s m).count (.handed u) ≤
        s.floor.load (u == ·) + (marks settings s m).count (.brought u) + timesSent u (marks settings s m) ∧
      (0 < s.floor.load (u == ·) →
        0 < (next settings s m).floor.load (u == ·) ∨ Mark.handed u ∈ marks settings s m) := by
  cases m with
  | send r =>
    obtain ⟨v, rest, hunsent⟩ := unsent_of_allows (r := r) ha
    obtain ⟨hnext, hmarks⟩ := next_send settings hs hunsent r
    rw [hnext, hmarks]
    -- which delay is drawn plays no part
    generalize delay settings r = d
    obtain ⟨hle, hle', -⟩ := WorkQueue.Floor.load_addAfter (coarse_beq u) s.floor hs.opened v d
    have hsent : timesSent u [.sent v d] = (u == v).toNat := by
      show [v].count u = (u == v).toNat
      rw [List.count_singleton, BEq.comm]
      cases u == v <;> rfl
    have hcount : [Mark.sent v d].count (.brought u) = 0 ∧ [Mark.sent v d].count (.handed u) = 0 := by
      simp
    rw [hsent, hcount.1, hcount.2, Nat.add_zero, Nat.add_zero]
    exact ⟨hle', fun h => .inl (Nat.lt_of_lt_of_le h hle)⟩
  | other m =>
    obtain ⟨hm, ha⟩ := other_of_allows ha
    obtain ⟨hbrought, hhanded, hsent⟩ := count_marks_other settings (s := s) u m
    obtain ⟨hle, hpos⟩ := WorkQueue.Floor.load_next (coarse_beq u) hs.floor hs.opened ha
    rw [hbrought, hhanded, hsent, Nat.add_zero]
    refine ⟨hle, ?_⟩
    intro hload
    rcases Nat.eq_zero_or_pos ((s.floor.handed? m).toList.countP (u == ·)) with hzero | hhand
    · have := hpos (by omega)
      left
      show 0 < (s.floor.next m).load (u == ·)
      omega
    · right
      rw [← hhanded] at hhand
      exact List.count_pos_iff.mp hhand

/-! ## Whole runs -/

/-- **Account**: what holds of a state and the marks so far. -/
structure Account (settings : Settings) (copies : List Update) (floor : WorkQueue.Floor Update) (s : Scatter)
    (l : List Mark) : Prop where
  sound : s.Sound
  /-- What is sent and what is to be sent are all the copies, in their order. -/
  sent : (sentIn l).map Prod.fst ++ s.unsent = copies
  drawn : ∀ e ∈ sentIn l, ∃ r, e.2 = delay settings r
  load : ∀ u, s.floor.load (u == ·) + l.count (.handed u) ≤
    floor.load (u == ·) + l.count (.brought u) + timesSent u l

/-- **An allowed move keeps the account.** -/
theorem Account.next {copies : List Update} {floor : WorkQueue.Floor Update} {l : List Mark}
    (h : Account settings copies floor s l) {m : Move} (ha : s.allows m = true) :
    Account settings copies floor (Scatter.next settings s m) (l ++ marks settings s m) := by
  obtain ⟨hsent, hdrawn⟩ := sentIn_marks settings h.sound ha
  refine ⟨h.sound.next settings ha, ?_, ?_, ?_⟩
  · rw [sentIn_append, List.map_append, List.append_assoc, hsent]
    exact h.sent
  · intro e he
    rw [sentIn_append, List.mem_append] at he
    exact he.elim (h.drawn e) (hdrawn e)
  · intro u
    have hload := h.load u
    obtain ⟨hmove, -⟩ := load_move settings h.sound ha u
    rw [List.count_append, List.count_append, timesSent_append]
    omega

/-- **The account of a run.** -/
theorem account_run (hs : s.Sound) {ms : List Move} (hl : (machine settings).legal s ms = true) :
    Account settings s.unsent s.floor ((machine settings).run s ms) (history settings s ms) := by
  have hstart : Account settings s.unsent s.floor s [] :=
    ⟨hs, rfl, fun e he => absurd he (by simp [sentIn]), fun u => by simp [timesSent, sentIn]⟩
  exact (machine settings).log_keeps (P := Account settings s.unsent s.floor)
    (fun t l m h ha => h.next settings ha) hstart hl

/-- What was sent is handed out afterwards, or it is on its way in the end. -/
theorem handed_of_sent (hs : s.Sound) {ms : List Move} (hl : (machine settings).legal s ms = true)
    {before after : List Mark} {u : Update} {d : Duration}
    (hsent : history settings s ms = before ++ .sent u d :: after) :
    0 < ((machine settings).run s ms).floor.load (u == ·) ∨ Mark.handed u ∈ after := by
  have hanswer := (machine settings).log_answers (marks settings) (P := Sound)
    (fun t => 0 < t.floor.load (u == ·)) (· = Mark.handed u) (fun t m ht ha => ht.next settings ha)
    (fun t m ht ha hload => by
      rcases (load_move settings ht ha u).2 hload with hload | hmem
      · exact .inl hload
      · exact .inr ⟨_, hmem, rfl⟩)
    (e := .sent u d)
    (fun t m ht ha hmem => by
      cases m with
      | send r =>
        obtain ⟨v, rest, hunsent⟩ := unsent_of_allows (r := r) ha
        rw [(next_send settings ht hunsent r).2, List.mem_singleton] at hmem
        obtain ⟨rfl, -⟩ := Mark.sent.inj hmem
        show 0 < (next settings t (.send r)).floor.load (u == ·)
        rw [(next_send settings ht hunsent r).1]
        exact (WorkQueue.Floor.takenWith_addAfter ht.opened u _).on_its_way
      | other m => simp [marks] at hmem)
    hs hl hsent
  exact hanswer.imp_right fun ⟨k, hk, hhanded⟩ => hhanded ▸ hk

/-- Each move of the call sends one copy. -/
theorem countP_isSend (hs : s.Sound) {ms : List Move} (hl : (machine settings).legal s ms = true) :
    ms.countP Move.isSend = (sentIn (history settings s ms)).length := by
  induction ms generalizing s with
  | nil => rfl
  | cons m ms ih =>
    obtain ⟨ha, hl⟩ := ((machine settings).legal_cons s m ms).mp hl
    have hrest := ih (hs.next settings ha) hl
    have hone : (sentIn (marks settings s m)).length = if m.isSend then 1 else 0 := by
      cases m with
      | send r =>
        obtain ⟨u, rest, hunsent⟩ := unsent_of_allows (r := r) ha
        rw [(next_send settings hs hunsent r).2]
        rfl
      | other m =>
        rw [sentIn_marks_other]
        rfl
    have hhistory : history settings s (m :: ms)
        = marks settings s m ++ history settings (next settings s m) ms := rfl
    rw [List.countP_cons, hrest, hhistory, sentIn_append, List.length_append, hone, Nat.add_comm]

/-- The queue takes in what is sent. -/
theorem taken_of_send (hs : s.Sound) {before after : List Move} {r : Nat}
    (hl : (machine settings).legal s (before ++ .send r :: after) = true) :
    ∃ u rest, ((machine settings).run s before).unsent = u :: rest ∧
      WorkQueue.Floor.TakenWith u (delay settings r) ((machine settings).run s before).floor
        ((machine settings).run s (before ++ [.send r])).floor := by
  rw [(machine settings).legal_append, (machine settings).legal_cons] at hl
  obtain ⟨hbefore, ha, -⟩ := hl
  have hsound : ((machine settings).run s before).Sound :=
    (machine settings).run_keeps (P := Sound) (fun t m ht ha => ht.next settings ha) hs hbefore
  obtain ⟨u, rest, hunsent⟩ := unsent_of_allows (r := r) ha
  refine ⟨u, rest, hunsent, ?_⟩
  have hnext : ((machine settings).next _ (.send r)).floor = _ :=
    congrArg Scatter.floor (next_send settings hsound hunsent r).1
  rw [(machine settings).run_append, Machine.run_cons, Machine.run_nil, hnext]
  exact WorkQueue.Floor.takenWith_addAfter hsound.opened u _

/-- If the copies are all different, the call adds each of them at most once. -/
theorem load_run (hs : s.Sound) (hnodup : s.unsent.Nodup) {ms : List Move}
    (hl : (machine settings).legal s ms = true) (u : Update) :
    ((machine settings).run s ms).floor.load (u == ·) + (history settings s ms).count (.handed u) ≤
      s.floor.load (u == ·) + (history settings s ms).count (.brought u) + 1 := by
  have haccount := account_run settings hs hl
  have htimes : timesSent u (history settings s ms) ≤ 1 := by
    rw [← haccount.sent] at hnodup
    exact List.nodup_iff_count.mp (List.nodup_append.mp hnodup).1 u
  exact Nat.le_trans (haccount.load u) (Nat.add_le_add_left htimes _)

/-- **What was sent and nobody else brought is on its way or handed out, and that once.** -/
theorem once_of_sent (hs : s.Sound) (hnodup : s.unsent.Nodup) {ms : List Move}
    (hl : (machine settings).legal s ms = true) {e : Update × Duration} (he : e ∈ sentIn (history settings s ms))
    (hnone : s.floor.load (e.1 == ·) = 0) (hbrought : Mark.brought e.1 ∉ history settings s ms) :
    ((machine settings).run s ms).floor.load (e.1 == ·) + (history settings s ms).count (.handed e.1) = 1 := by
  have hle := load_run settings hs hnodup hl e.1
  rw [hnone, List.count_eq_zero.mpr hbrought] at hle
  have hmark : Mark.sent e.1 e.2 ∈ history settings s ms := by
    obtain ⟨k, hk, hsent⟩ := List.mem_filterMap.mp he
    cases k with
    | sent u d =>
      obtain rfl : (u, d) = e := Option.some.inj hsent
      exact hk
    | _ => exact absurd hsent (by simp [sent?])
  obtain ⟨before, after, hsplit⟩ := List.append_of_mem hmark
  rcases handed_of_sent settings hs hl hsplit with hload | hhanded
  · omega
  · have hpos : 0 < (history settings s ms).count (.handed e.1) := by
      rw [List.count_pos_iff, hsplit]
      exact List.mem_append_right _ (List.mem_cons_of_mem _ hhanded)
    omega

/-- With nothing to send, only the others do something. -/
theorem run_others (hnone : s.unsent = []) {ms : List Move} (hl : (machine settings).legal s ms = true) :
    ((machine settings).run s ms).floor = (WorkQueue.Floor.machine Update).run s.floor (others ms) := by
  induction ms generalizing s with
  | nil => rfl
  | cons m ms ih =>
    obtain ⟨ha, hl⟩ := ((machine settings).legal_cons s m ms).mp hl
    cases m with
    | send r =>
      obtain ⟨u, rest, hunsent⟩ := unsent_of_allows (r := r) ha
      exact absurd (hnone.symm.trans hunsent) (by simp)
    | other m => exact ih (s := { s with floor := s.floor.next m }) hnone hl

/-- **What is sent for a pair** of a host and an update, with their indices. -/
structure SentFor (settings : Settings) (token : Nat → Nat → String) (i j : Nat) (h : String) (v : Update)
    (e : Update × Duration) : Prop where
  kind : e.1.kind = v.kind
  upstream : e.1.upstream = v.upstream
  clientType : e.1.clientType = v.clientType
  servers : e.1.servers = v.servers
  host : e.1.host = h
  /-- The id tells the indices, whatever the tokens are, and also tells a token of letters and digits. -/
  indices : ∀ i' j' token' upstream' host', e.1.id = Id.text i' j' token' upstream' host' → i' = i ∧ j' = j
  readable : (token i j).toList.all Char.isAlphanum = true → Id.read? e.1.id = some ⟨i, j, token i j⟩
  /-- The delay is within the bounds; if these are the wrong way round, it is the lower one. -/
  delay : ∃ ms, e.2 = .ofMillis ms ∧ settings.outbound.minJitter ≤ ms ∧
    (settings.outbound.minJitter ≤ settings.outbound.maxJitter → ms ≤ settings.outbound.maxJitter) ∧
    (settings.outbound.maxJitter < settings.outbound.minJitter → ms = settings.outbound.minJitter)

/-- A drawn delay is within the bounds. -/
theorem delay_within (r : Nat) : ∃ ms, delay settings r = .ofMillis ms ∧ settings.outbound.minJitter ≤ ms ∧
    (settings.outbound.minJitter ≤ settings.outbound.maxJitter → ms ≤ settings.outbound.maxJitter) ∧
    (settings.outbound.maxJitter < settings.outbound.minJitter → ms = settings.outbound.minJitter) := by
  have hlow := Delivery.Jitter.min_le_draw settings.outbound.minJitter settings.outbound.maxJitter r
  have hhigh := Delivery.Jitter.draw_le_upper settings.outbound.minJitter settings.outbound.maxJitter r
  have hupper : Delivery.Jitter.upper settings.outbound.minJitter settings.outbound.maxJitter
      = max settings.outbound.maxJitter settings.outbound.minJitter := rfl
  rw [hupper] at hhigh
  refine ⟨_, rfl, hlow, ?_, ?_⟩
  · intro h
    rwa [Nat.max_eq_left h] at hhigh
  · intro h
    rw [Nat.max_eq_right (Nat.le_of_lt h)] at hhigh
    omega

/-- A copy with a drawn delay is what is to be sent for its pair. -/
theorem sentFor_copy (token : Nat → Nat → String) (i j : Nat) (h : String) (v : Update) (r : Nat) :
    SentFor settings token i j h v (Delivery.copyFor token (i, h) (j, v), delay settings r) where
  kind := rfl
  upstream := rfl
  clientType := rfl
  servers := rfl
  host := rfl
  indices i' j' token' upstream' host' hid := by
    obtain ⟨hi, hj⟩ := Id.text_indices hid
    exact ⟨hi.symm, hj.symm⟩
  readable htoken := Id.read?_text i j htoken v.upstream h
  delay := delay_within settings r

/-- **Scattered**: what a call does among the others. -/
structure Scattered (settings : Settings) (floor : WorkQueue.Floor Update) (updates : List Update)
    (token : Nat → Nat → String) (ms : List Move) (s : Scatter) (l : List Mark) : Prop where
  /-- One copy is sent by each move of the call. There is one for each pair of a host and an update, and nothing holds
  the call up before it has sent them all. -/
  sends : ms.countP Move.isSend = (sentIn l).length
  length : (sentIn l).length + s.unsent.length = settings.hosts.length * updates.length
  proceeds : s.unsent ≠ [] → ∀ r, s.allows (.send r) = true
  /-- In the end the copies were sent in the order of hosts and then of updates. -/
  copy : s.unsent = [] → ∀ i j h v, settings.hosts[i]? = some h → updates[j]? = some v →
    ∃ e, (sentIn l)[i * updates.length + j]? = some e ∧ SentFor settings token i j h v e
  /-- No two of them have the same id. -/
  apart : (sentIn l).Pairwise fun e e' => e.1.id ≠ e'.1.id
  /-- Without a delay a copy is taken in when it is sent; otherwise it is announced, and lands later. -/
  taken : ∀ before r after, ms = before ++ .send r :: after →
    ∃ u rest, ((machine settings).run (start settings floor updates token) before).unsent = u :: rest ∧
      WorkQueue.Floor.TakenWith u (delay settings r)
        ((machine settings).run (start settings floor updates token) before).floor
        ((machine settings).run (start settings floor updates token) (before ++ [.send r])).floor
  /-- None is lost: it is handed out after it is sent, or it is on its way in the end. -/
  kept : ∀ before u d after, l = before ++ .sent u d :: after →
    0 < s.floor.load (u == ·) ∨ Mark.handed u ∈ after
  /-- None becomes one with another of this call: a copy that nobody else brings is on its way or handed out,
  and that once. -/
  once : ∀ e ∈ sentIn l, floor.load (e.1 == ·) = 0 → Mark.brought e.1 ∉ l →
    s.floor.load (e.1 == ·) + l.count (.handed e.1) = 1
  /-- What equals a copy and is brought by others may become one with it, but never adds to it. -/
  bounded : ∀ e ∈ sentIn l, s.floor.load (e.1 == ·) + l.count (.handed e.1) ≤
    floor.load (e.1 == ·) + l.count (.brought e.1) + 1
  /-- Without hosts nothing is sent, and the queue is as the others leave it. -/
  nobody : settings.hosts = [] →
    sentIn l = [] ∧ s.floor = (WorkQueue.Floor.machine Update).run floor (others ms)

/-- A call begins soundly if no host is empty and the queue is open. -/
theorem Sound.start {floor : WorkQueue.Floor Update} (hfloor : floor.Sound) (hopen : floor.queue.closed = false)
    (hhosts : ∀ h ∈ settings.hosts, h ≠ "") (updates : List Update) (token : Nat → Nat → String) :
    (Scatter.start settings floor updates token).Sound where
  floor := hfloor
  opened := hopen
  addressed u hu := hhosts u.host (Delivery.host_of_mem_copies hu)

/-- **Every copy is sent once, and none of them is merged with another.** Whatever the hosts, the updates, the
tokens and the drawn delays are, and whatever others do to the queue meanwhile: there is one copy for each pair
of a host and an update, with its own id, and each of them is handed out or on its way. -/
theorem run_scatters (floor : WorkQueue.Floor Update) (updates : List Update) (token : Nat → Nat → String)
    (hhosts : ∀ h ∈ settings.hosts, h ≠ "") (hfloor : floor.Sound) (hopen : floor.queue.closed = false)
    (ms : List Move) (hl : (machine settings).legal (start settings floor updates token) ms = true) :
    Scattered settings floor updates token ms ((machine settings).run (start settings floor updates token) ms)
      (history settings (start settings floor updates token) ms) := by
  have hstart := Sound.start settings hfloor hopen hhosts updates token
  have haccount := account_run settings hstart hl
  have hcopies : (sentIn (history settings (start settings floor updates token) ms)).map Prod.fst
      ++ ((machine settings).run (start settings floor updates token) ms).unsent
        = Delivery.copies settings.hosts updates token :=
    haccount.sent
  have hapart : (Delivery.copies settings.hosts updates token).Pairwise fun u u' => u.id ≠ u'.id :=
    Delivery.ids_apart
  have hnodup : (start settings floor updates token).unsent.Nodup :=
    hapart.imp fun hid heq => hid (congrArg Update.id heq)
  refine ⟨countP_isSend settings hstart hl, ?_, ?_, ?_, ?_, ?_, ?_, ?_, ?_, ?_⟩
  · rw [← Delivery.length_copies token, ← hcopies, List.length_append, List.length_map]
  · intro hunsent r
    rw [allows, Bool.not_eq_true', List.isEmpty_eq_false_iff]
    exact hunsent
  · intro hall i j h v hh hv
    have hplace := Delivery.copies_getElem? token hh hv
    rw [← hcopies, hall, List.append_nil, List.getElem?_map, Option.map_eq_some_iff] at hplace
    obtain ⟨⟨u, d⟩, he, rfl⟩ := hplace
    obtain ⟨r, rfl⟩ := haccount.drawn _ (List.mem_of_getElem? he)
    exact ⟨_, he, sentFor_copy settings token i j h v r⟩
  · rw [← hcopies, List.pairwise_append, List.pairwise_map] at hapart
    exact hapart.1
  · intro before r after hms
    rw [hms] at hl
    exact taken_of_send settings hstart hl
  · intro before u d after hsent
    exact handed_of_sent settings hstart hl hsent
  · intro e he hnone hbrought
    exact once_of_sent settings hstart hnodup hl he hnone hbrought
  · intro e _
    exact load_run settings hstart hnodup hl e.1
  · intro hnohosts
    have hnone : Delivery.copies settings.hosts updates token = [] := by
      rw [hnohosts]
      rfl
    rw [hnone, List.append_eq_nil_iff, List.map_eq_nil_iff] at hcopies
    exact ⟨hcopies.1, run_others settings hnone hl⟩

/-- Two of three hosts are the same, and one looks like the middle of an id. -/
def threeHosts : Settings where
  hosts := ["]:[", "http://lb", "http://lb"]
  outbound := { minJitter := 0, maxJitter := 2 }

/-- An update whose upstream looks like the middle of an id. -/
def tea : Update where
  kind := .updated
  upstream := "0]:[1"
  clientType := "http"
  servers := ["10.0.0.1:30080"]

/-- All tokens are the same. -/
def oneToken : Nat → Nat → String :=
  fun _ _ => "AAAAAAAA"

/-- The second copy of the update for the first host. -/
def secondCopy : Update :=
  tea.addressed "[0]:[1]:[AAAAAAAA]:[0]:[1]:[]:[]" "]:["

/-- Some copies are sent without a delay and some with one. A worker takes the first copy meanwhile, the second
one lands, and somebody else adds an update of their own. -/
def meanwhile : List Move :=
  [.send 0, .other .take, .send 1, .other (.land secondCopy), .send 2, .other (.add tea), .send 3, .send 4,
    .other .take, .send 5]

/-- The same update twice, for hosts that come twice, with tokens that are all the same. -/
theorem run_scatters_repeated :
    (machine threeHosts).legal (start threeHosts (.start "q" ⟨1⟩ ⟨10⟩) [tea, tea] oneToken) meanwhile = true ∧
      ((machine threeHosts).run (start threeHosts (.start "q" ⟨1⟩ ⟨10⟩) [tea, tea] oneToken) meanwhile).unsent
        = [] ∧
      Scattered threeHosts (.start "q" ⟨1⟩ ⟨10⟩) [tea, tea] oneToken meanwhile
        ((machine threeHosts).run (start threeHosts (.start "q" ⟨1⟩ ⟨10⟩) [tea, tea] oneToken) meanwhile)
        (history threeHosts (start threeHosts (.start "q" ⟨1⟩ ⟨10⟩) [tea, tea] oneToken) meanwhile) :=
  ⟨by decide +kernel, by decide +kernel,
    run_scatters threeHosts (.start "q" ⟨1⟩ ⟨10⟩) [tea, tea] oneToken (by decide) (.start "q" ⟨1⟩ ⟨10⟩) rfl meanwhile
      (by decide +kernel)⟩

end Scatter

end BorderSync
