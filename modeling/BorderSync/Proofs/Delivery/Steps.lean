/-
# BorderSync.Proofs.Delivery.Steps -- what an allowed move of the outbound side does

Every allowed move makes one of eleven steps. A step says what it found and what it leaves, so that nothing
below has to look into the moves again.
-/
import BorderSync.Proofs.Delivery.Outbound

namespace BorderSync.Outbound

open Border Event
open Endpoint (Location)

variable {settings : Settings} {s t : Outbound} {m : Move} {marks : List Mark}

/-- **Step**: a move, the state it leads to and the marks it leaves. -/
inductive Step (settings : Settings) (s : Outbound) : Move → Outbound → List Mark → Prop
  | translate (cache : Cluster.Cache) (c : Change) (tokens : Nat → Nat → String)
    (made : List Update) :
    Step settings s (.translate cache c tokens) { s with unsent := s.unsent ++ made } []
  /-- A copy without host goes nowhere. -/
  | drop (u : Update) (r : Nat) (hhost : u.host = "") :
    Step settings s (.schedule u r) { s with unsent := s.unsent.erase u } []
  | schedule (u : Update) (r : Nat) (delay : Duration) (hhost : u.host ≠ "") :
    Step settings s (.schedule u r)
      { s with unsent := s.unsent.erase u, floor := s.floor.addAfter u delay } []
  | land (u : Update) (hcoming : s.floor.coming.contains u = true) :
    Step settings s (.land u) { s with floor := s.floor.next (.land u) } []
  /-- A worker finds nothing. -/
  | rest : Step settings s .take s []
  | take (u : Update) (later : List Update) (hwaiting : s.floor.queue.waiting = u :: later)
    (hfree : s.floor.hands.length < Nat.max settings.outbound.threads 1) :
    Step settings s .take
      { s with floor := s.floor.take, stages := s.stages.insert u (.opening u) } []
  | answer (u : Update) (q : Request) (next : Answer → Call Outcome) (r : Response) (id : Int)
    (hstage : s.stages.get? u = some (.asking (.ask q next))) (hr : r.isSuccess = true)
    (hgrants : (s.shelf q.place).grants (contextOf u) q id (.ok r) = true) :
    Step settings s (.answer u (.ok r) id)
      { s with
        stages := s.stages.insert u (.asking (next (.ok r)))
        shelves := s.shelves.insert q.place ((s.shelf q.place).serve (contextOf u) q id) }
      [if q.writes then .wrote u q.place else .listed u q.place]
  /-- An attempt is over for good. -/
  | settle (u : Update) (o : Outcome) (hstage : s.stages.get? u = some (.asking (.done o))) :
    Step settings s (.settle u)
      { s with floor := s.floor.next (.forget u), stages := s.stages.insert u .settled } []
  /-- An attempt has failed, and is to be repeated. -/
  | fail (u : Update) (o : Outcome) (hstage : s.stages.get? u = some (.asking (.done o)))
    (hfailed : o.result ≠ .ok ()) (wait : Duration) :
    Step settings s (.settle u)
      { s with floor := s.floor.next (.recordFailure u), stages := s.stages.insert u (.again wait) } []
  | readd (u : Update) (wait : Duration) (hstage : s.stages.get? u = some (.again wait)) :
    Step settings s (.readd u)
      { s with floor := s.floor.addAfter u wait, stages := s.stages.insert u .settled } []
  | done (u : Update) (hstage : s.stages.get? u = some .settled) :
    Step settings s (.done u)
      { s with floor := s.floor.next (.done u), stages := s.stages.erase u } []

/-! ## Moves are steps -/

theorem asked?_eq_some {u : Update} {q : Request} {next : Answer → Call Outcome}
    (h : s.asked? u = some (q, next)) : s.stages.get? u = some (.asking (.ask q next)) := by
  unfold asked? at h
  split at h
  · rename_i q' next' hstage
    obtain ⟨rfl, rfl⟩ := Prod.mk.inj (Option.some.inj h)
    exact hstage
  · exact absurd h (by simp)

theorem step_schedule (settings : Settings) (s : Outbound) (u : Update) (r : Nat) :
    Step settings s (.schedule u r) (next settings s (.schedule u r)) [] := by
  -- the delay is kept as a whole: nothing is to be computed from its digits
  obtain ⟨delay, hnext⟩ : ∃ delay, next settings s (.schedule u r) = { s with
      unsent := s.unsent.erase u
      floor := if u.host = "" then s.floor else s.floor.addAfter u delay } := ⟨_, rfl⟩
  rw [hnext]
  by_cases hhost : u.host = ""
  · rw [if_pos hhost]
    exact .drop u r hhost
  · rw [if_neg hhost]
    exact .schedule u r delay hhost

theorem step_take (hfree : s.floor.hands.length < Nat.max settings.outbound.threads 1) :
    Step settings s .take s.take [] := by
  cases hw : s.floor.queue.waiting with
  | nil =>
    have htake : s.take = s := by
      unfold take
      rw [WorkQueue.Floor.take_of_empty hw, WorkQueue.hand_of_empty hw]
      cases s.floor.queue.closed && s.floor.queue.delayed == 0 <;> rfl
    rw [htake]
    exact .rest
  | cons u later =>
    have htake : s.take = { s with
        floor := s.floor.take
        stages := s.stages.insert u (.opening u) } := by
      unfold take
      rw [(s.floor.queue.hand_eq_item_iff u).mpr ⟨later, hw⟩]
    rw [htake]
    exact .take u later hw hfree

theorem step_answer {u : Update} {a : Answer} {id : Int}
    (ha : allows settings s (.answer u a id) = true) :
    Step settings s (.answer u a id) (s.answer u a id) (s.marks (.answer u a id)) := by
  simp only [allows] at ha
  unfold answer
  cases hasked : s.asked? u with
  | none =>
    rw [hasked] at ha
    exact absurd ha (by simp)
  | some p =>
    obtain ⟨q, next⟩ := p
    rw [hasked] at ha
    obtain ⟨r, rfl, hr⟩ := Shelf.response_of_grants ha
    simp only [Outbound.marks, hasked]
    exact .answer u q next r id (asked?_eq_some hasked) hr ha

theorem step_settle {u : Update} (ha : allows settings s (.settle u) = true) :
    Step settings s (.settle u) (s.settle settings u) [] := by
  simp only [allows] at ha
  unfold settle
  split at ha
  · rename_i o hstage
    split
    · rename_i n hverdict
      -- only failures are repeated
      refine .fail u o hstage (fun hok => ?_) _
      rw [hok] at hverdict
      exact absurd hverdict (by simp [Delivery.verdict])
    · exact .settle u o hstage
  · exact absurd ha (by simp)

theorem step_readd {u : Update} (ha : allows settings s (.readd u) = true) :
    Step settings s (.readd u) (s.readd u) [] := by
  simp only [allows] at ha
  unfold readd
  split at ha
  · rename_i wait hstage
    exact .readd u wait hstage
  · exact absurd ha (by simp)

theorem step_done {u : Update} (ha : allows settings s (.done u) = true) :
    Step settings s (.done u) (next settings s (.done u)) [] := by
  simp only [allows] at ha
  split at ha
  · rename_i hstage
    exact .done u hstage
  · exact absurd ha (by simp)

/-- **Every allowed move is a step.** -/
theorem step_of_allows (ha : allows settings s m = true) :
    Step settings s m (next settings s m) (s.marks m) := by
  cases m with
  | translate cache c tokens => exact .translate cache c tokens _
  | schedule u r => exact step_schedule settings s u r
  | land u => exact .land u ha
  | take => exact step_take (of_decide_eq_true ha)
  | answer u a id => exact step_answer ha
  | settle u => exact step_settle ha
  | readd u => exact step_readd ha
  | done u => exact step_done ha

/-- What the servers hold at a place after a request. -/
theorem shelf_insert (s : Outbound) (stages : Table Update Stage) (l l' : Location) (b : Shelf) :
    shelf { s with stages := stages, shelves := s.shelves.insert l b } l' =
      if l' = l then b else s.shelf l' := by
  unfold shelf
  rw [Table.get?_insert]
  by_cases h : l' = l <;> simp [h]

/-! ## What every move keeps -/

/-- **Sound**: the queue is in order and accepts what comes, exactly what is in hand has a stage, and ids
are apart at every place. -/
structure Sound (s : Outbound) : Prop where
  floor : s.floor.Sound
  accepting : s.floor.queue.closed = false
  in_hand : ∀ u, (s.stages.get? u).isSome = s.floor.hands.contains u
  ids_once : ∀ l, (s.shelf l).ids.Nodup

/-- An update in hand goes on to another stage. -/
theorem isSome_insert {stages : Table Update Stage} {u : Update} {old : Stage}
    (h : stages.get? u = some old) (stage : Stage) (w : Update) :
    ((stages.insert u stage).get? w).isSome = (stages.get? w).isSome := by
  rw [Table.get?_insert]
  by_cases hw : w = u
  · simp [hw, h]
  · simp [hw]

namespace Sound

theorem start (settings : Settings) {shelves : Table Location Shelf}
    (h : ∀ l, ((shelves.get? l).getD []).ids.Nodup) : (Outbound.start settings shelves).Sound :=
  ⟨.start _ _ _, rfl, fun _ => rfl, h⟩

theorem step (h : s.Sound) (hstep : Step settings s m t marks) : t.Sound := by
  cases hstep with
  | translate cache c tokens made => exact ⟨h.floor, h.accepting, h.in_hand, h.ids_once⟩
  | drop u r hhost => exact ⟨h.floor, h.accepting, h.in_hand, h.ids_once⟩
  | schedule u r delay hhost =>
    exact ⟨h.floor.addAfter u delay, (WorkQueue.closed_addAfter _ u delay).trans h.accepting,
      h.in_hand, h.ids_once⟩
  | land u hcoming =>
    exact ⟨h.floor.land hcoming, (WorkQueue.closed_land _ u).trans h.accepting, h.in_hand, h.ids_once⟩
  | rest => exact h
  | take u later hwaiting hfree =>
    refine ⟨h.floor.take, (WorkQueue.closed_take hwaiting).trans h.accepting, ?_, h.ids_once⟩
    intro w
    show ((s.stages.insert u (.opening u)).get? w).isSome = s.floor.take.hands.contains w
    rw [WorkQueue.Floor.hands_take hwaiting, Table.get?_insert, List.contains_append, ← h.in_hand w]
    by_cases hwu : w = u <;> simp [hwu]
  | answer u q next r id hstage hr hgrants =>
    refine ⟨h.floor, h.accepting, fun w => (isSome_insert hstage _ w).trans (h.in_hand w), ?_⟩
    intro l
    rw [shelf_insert]
    split
    · exact Shelf.nodup_serve (h.ids_once q.place) hgrants
    · exact h.ids_once l
  | settle u o hstage =>
    exact ⟨h.floor.next (.forget u) rfl, h.accepting,
      fun w => (isSome_insert hstage _ w).trans (h.in_hand w), h.ids_once⟩
  | fail u o hstage hfailed wait =>
    exact ⟨h.floor.next (.recordFailure u) rfl, h.accepting,
      fun w => (isSome_insert hstage _ w).trans (h.in_hand w), h.ids_once⟩
  | readd u wait hstage =>
    exact ⟨h.floor.addAfter u wait, (WorkQueue.closed_addAfter _ u wait).trans h.accepting,
      fun w => (isSome_insert hstage _ w).trans (h.in_hand w), h.ids_once⟩
  | done u hstage =>
    have hhand : s.floor.hands.contains u = true := by rw [← h.in_hand u, hstage, Option.isSome_some]
    refine ⟨h.floor.done hhand, h.accepting, ?_, h.ids_once⟩
    intro w
    show ((s.stages.erase u).get? w).isSome = (s.floor.hands.eraseP (· == u)).contains w
    rw [Table.get?_erase, contains_eraseP h.floor.hands_once, ← h.in_hand w]
    by_cases hwu : w = u <;> simp [hwu]

/-- **Every allowed move keeps the outbound side sound.** -/
theorem next (h : s.Sound) (m : Move) (ha : allows settings s m = true) :
    (Outbound.next settings s m).Sound :=
  h.step (step_of_allows ha)

end Sound

end BorderSync.Outbound
