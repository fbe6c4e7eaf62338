/-
# BorderSync.Proofs.Queue.LaneTurns -- that a pipeline moves its inbound queue as a lane does

What is done to the inbound queue of a pipeline without a break is a legal run of a lane: a change is added,
a change lands, and a consumer goes through all that it does with one change. The queue is left as the lane
leaves its own; for every change that has to wait a task begins, which starts a timer that is due at the
moment at which the change lands in the lane.
-/
import BorderSync.Proofs.Queue.Lane
import BorderSync.Proofs.Relay.Agreement

namespace BorderSync.Pipeline

open Event WorkQueue

variable {p : Pipeline} {s : Lane Change}

/-! ## The outbound side -/

theorem inbound_addUpdateAfter (p : Pipeline) (u : Update) (delay : Duration) :
    (p.addUpdateAfter u delay).inbound = p.inbound := by
  unfold addUpdateAfter
  split <;> rfl

theorem inbound_schedule (p : Pipeline) (u : Update) : (p.schedule u).inbound = p.inbound := by
  by_cases hhost : u.host = ""
  · simp only [schedule, if_pos hhost, note]
  · simp only [schedule, if_neg hhost, inbound_addUpdateAfter]

/-- Scheduling copies leaves the inbound queue alone. -/
theorem inbound_fanOut (p : Pipeline) (us : List Update) : (p.fanOut us).inbound = p.inbound := by
  have hcopies (ws : List Update) (p : Pipeline) : (ws.foldl schedule p).inbound = p.inbound := by
    induction ws generalizing p with
    | nil => rfl
    | cons w ws ih => exact (ih _).trans (p.inbound_schedule w)
  unfold fanOut
  dsimp only
  split
  · rfl
  · exact hcopies _ _

/-- Handling a change forgets its failures, and does no more to the inbound queue. -/
theorem inbound_handleChange (p : Pipeline) (c : Change) :
    (p.handleChange c).inbound = p.inbound.forget c := by
  unfold handleChange
  cases Plan.ofChange p.cache c with
  | ok r => exact congrArg (SharedQueue.forget · c) (inbound_fanOut _ _)
  | error e => rfl

/-! ## The inbound side -/

/-- A change is added after the wait that its failures earn. A task begins for it if it has to wait. -/
theorem follows_addChangeRateLimited (hqueue : s.queue = p.inbound.queue) (hnow : s.now = p.clock.now)
    (hout : s.outbox = none) (c : Change) :
    (Lane.machine Change).legal s [.rate c, .post] = true ∧
      ((Lane.machine Change).run s [.rate c, .post]).queue = (p.addChangeRateLimited c).inbound.queue ∧
      ∃ waits : List Duration,
        ((Lane.machine Change).run s [.rate c, .post]).pending =
            s.pending ++ waits.map (fun wait => ⟨p.clock.now + wait.ceilMillis, c⟩) ∧
          (p.addChangeRateLimited c).tasks =
            p.tasks ++ waits.map fun wait => (p.clock.nextTask, .landChange c wait false) := by
  have hlegal : (Lane.machine Change).legal s [.rate c, .post] = true := by
    simp [Machine.legal, Lane.machine, Lane.allows, Lane.next, hout]
  refine ⟨hlegal, ?_⟩
  show (s.next (.rate c)).post.queue = _ ∧
    ∃ waits : List Duration, (s.next (.rate c)).post.pending = _ ∧ _
  unfold addChangeRateLimited addChangeAfter Lane.post
  simp only [Lane.next, hqueue, hnow, addAfter]
  have hadmission (wait : Duration) :
      (p.inbound.queue.recordFailure c).admission wait = p.inbound.queue.admission wait := rfl
  rw [hadmission]
  cases p.inbound.queue.admission (p.inbound.queue.backoff.wait c) with
  | now => exact ⟨(SharedQueue.queue_become _ _ _).symm, [], by simp, by simp [withInbound, wakeAll]⟩
  | refused => exact ⟨rfl, [], by simp, by simp [note]⟩
  | later => exact ⟨rfl, [p.inbound.queue.backoff.wait c], rfl, rfl⟩

/-- The task that was begun for a change starts its timer. -/
theorem startTimer_landChange {t : TaskId} {c : Change} {wait : Duration}
    (ht : p.tasks.lookup t = some (.landChange c wait false)) :
    (p.turn t).clock.timers = p.clock.timers ++ [⟨p.clock.now + wait.ceilMillis, t⟩] ∧
      (p.turn t).inbound = p.inbound := by
  unfold turn
  rw [ht]
  exact ⟨rfl, rfl⟩

/-- The change of a task whose timer is due lands. -/
theorem follows_land {t : TaskId} {c : Change} {wait : Duration} {due i : Nat}
    (hqueue : s.queue = p.inbound.queue) (ht : p.tasks.lookup t = some (.landChange c wait true))
    (hpending : s.pending[i]? = some ⟨due, c⟩) :
    (s.next (.land i)).queue = (p.turn t).inbound.queue := by
  unfold turn
  rw [ht]
  simp only [Lane.next, Lane.land, hpending, hqueue]
  exact (SharedQueue.queue_become _ _ _).symm

/-- A consumer handles the change that it finds, and is done with it. -/
theorem follows_consume (hqueue : s.queue = p.inbound.queue) (hdesk : s.desk = .free) {c : Change}
    (hhand : p.inbound.queue.hand = .item c) (t : TaskId) :
    let p₁ := p.withInbound ((p.inbound.consult t).1, (p.inbound.consult t).2.2)
    let p₂ := p₁.handleChange c
    (Lane.machine Change).legal s [.take, .deal, .forget, .done] = true ∧
      ((Lane.machine Change).run s [.take, .deal, .forget, .done]).queue =
        (p₂.withInbound (p₂.inbound.done c)).inbound.queue ∧
      s.history [.take, .deal, .forget, .done] = [.dealt c] := by
  intro p₁ p₂
  have htake : s.take = { s with queue := s.queue.take, desk := .fresh c } := by
    unfold Lane.take
    rw [hqueue, hhand]
  have hinbound : p₂.inbound.queue = (p.inbound.queue.take).forget c := by
    rw [inbound_handleChange]
    exact congrArg (WorkQueue.forget · c) (SharedQueue.queue_consult p.inbound t)
  have hdone : (p₂.withInbound (p₂.inbound.done c)).inbound.queue = p₂.inbound.queue.done c :=
    SharedQueue.queue_become _ _ _
  rw [hdone, hinbound]
  refine ⟨?_, ?_, ?_⟩
  · simp [Machine.legal, Lane.machine, Lane.allows, Lane.next, htake, hdesk]
  · simp [Machine.run, Lane.machine, Lane.next, htake, hqueue]
  · simp [Lane.history, Machine.log, Lane.machine, Lane.marks, Lane.next, htake]

end BorderSync.Pipeline
