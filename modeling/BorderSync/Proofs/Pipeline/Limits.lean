/-
# BorderSync.Proofs.Pipeline.Limits -- what never changes in a pipeline

A pipeline works with the settings that it was given, and its two queues with the names and the bounds of
waits that these settings have for them. Nothing that is asked of a pipeline and nothing that its tasks do
ever changes that. So it is enough to look once at what the settings say.
-/
import BorderSync.Pipeline.Requests
import BorderSync.Proofs.Queue.Backoff
import BorderSync.Proofs.Relay.Agreement

namespace BorderSync

open Event

/-! ## Queues -/

namespace WorkQueue

variable {α : Type}

/-- **Limits** of a queue: its name, and the bounds of the waits that failures earn. -/
def limits (q : WorkQueue α) : QueueSettings :=
  ⟨q.name, q.backoff.base, q.backoff.max⟩

@[simp] theorem limits_shutDown (q : WorkQueue α) : q.shutDown.limits = q.limits := rfl

variable [BEq α] (q : WorkQueue α) (x : α)

@[simp] theorem limits_push : (q.push x).limits = q.limits := by
  unfold push
  split <;> rfl

@[simp] theorem limits_add : (q.add x).limits = q.limits := by
  unfold add
  split
  · rfl
  · exact q.limits_push x

@[simp] theorem limits_land : (q.land x).limits = q.limits :=
  limits_push { q with delayed := q.delayed - 1 } x

@[simp] theorem limits_take : q.take.limits = q.limits := by
  unfold take
  split <;> rfl

@[simp] theorem limits_done : (q.done x).limits = q.limits := rfl

end WorkQueue

namespace Drain

variable {α : Type}

theorem queue_consultEnd (s : SharedQueue α) (t : TaskId) : (s.consultEnd t).1.queue = s.queue := by
  unfold SharedQueue.consultEnd
  split <;> rfl

theorem queue_look (t : TaskId) (s : SharedQueue α) (c : Clock) (reports : List Report) :
    (look t s c reports).shared.queue = s.queue := by
  unfold look
  dsimp only
  split <;> exact queue_consultEnd s t

/-- A drain does no more to a queue than to shut it down. -/
theorem limits_turn (d : Drain) (t : TaskId) (s : SharedQueue α) (c : Clock) :
    (d.turn t s c).shared.queue.limits = s.queue.limits := by
  unfold turn
  split
  · dsimp only
    rw [queue_look, SharedQueue.shutDown, SharedQueue.queue_become, WorkQueue.limits_shutDown]
  · split
    · rw [queue_look]
    · split
      · rw [queue_look]
      · rfl

end Drain

/-! ## Pipelines -/

/-- **Limits** of a pipeline: its settings, and those of its queues. -/
structure Limits where
  settings : Settings
  inbound : QueueSettings
  outbound : QueueSettings

namespace Pipeline

/-- The limits of a pipeline. -/
def limits (p : Pipeline) : Limits :=
  ⟨p.settings, p.inbound.queue.limits, p.outbound.queue.limits⟩

variable (p : Pipeline)

/-- What shows the same has the same limits. -/
theorem limits_of_shown {p p' : Pipeline} (h : p'.shown = p.shown) : p'.limits = p.limits :=
  congrArg (fun s : Shown => (⟨s.settings, s.inbound.limits, s.outbound.limits⟩ : Limits)) h

theorem limits_withInbound {r : SharedQueue Change × List TaskId}
    (h : r.1.queue.limits = p.inbound.queue.limits) : (p.withInbound r).limits = p.limits :=
  congrArg (fun l => (⟨p.settings, l, p.outbound.queue.limits⟩ : Limits)) h

theorem limits_withOutbound {r : SharedQueue Update × List TaskId}
    (h : r.1.queue.limits = p.outbound.queue.limits) : (p.withOutbound r).limits = p.limits :=
  congrArg (fun l => (⟨p.settings, p.inbound.queue.limits, l⟩ : Limits)) h

@[simp] theorem limits_note (rs : List Report) : (p.note rs).limits = p.limits := rfl

@[simp] theorem limits_spawn (task : PipelineTask) : (p.spawn task).limits = p.limits := rfl

@[simp] theorem limits_leave (t run : TaskId) : (p.leave t run).limits = p.limits :=
  limits_of_shown (p.shown_leave t run)

@[simp] theorem limits_send (q : Border.Request) : (p.send q).2.2.limits = p.limits :=
  limits_of_shown (p.shown_send q)

/-- What keeps the limits may be done again and again. -/
theorem limits_foldl {β : Type} {f : Pipeline → β → Pipeline} (h : ∀ p b, (f p b).limits = p.limits)
    (bs : List β) : (bs.foldl f p).limits = p.limits := by
  induction bs generalizing p with
  | nil => rfl
  | cons b bs ih => exact (ih (f p b)).trans (h p b)

@[simp] theorem limits_spawnMany (n : Nat) (task : PipelineTask) : (p.spawnMany n task).limits = p.limits := by
  unfold spawnMany
  induction n with
  | zero => rfl
  | succ n ih => exact (limits_spawn _ task).trans ih

/-! ### Adding -/

@[simp] theorem limits_addChangeAfter (c : Change) (d : Duration) : (p.addChangeAfter c d).limits = p.limits := by
  unfold addChangeAfter
  split
  · exact p.limits_withInbound (by rw [SharedQueue.add, SharedQueue.queue_become, WorkQueue.limits_add])
  · rfl
  · rfl

@[simp] theorem limits_addUpdateAfter (u : Update) (d : Duration) : (p.addUpdateAfter u d).limits = p.limits := by
  unfold addUpdateAfter
  split
  · exact p.limits_withOutbound (by rw [SharedQueue.add, SharedQueue.queue_become, WorkQueue.limits_add])
  · rfl
  · rfl

@[simp] theorem limits_addChangeRateLimited (c : Change) : (p.addChangeRateLimited c).limits = p.limits :=
  limits_addChangeAfter { p with inbound := { p.inbound with queue := p.inbound.queue.recordFailure c } } c _

@[simp] theorem limits_addUpdateRateLimited (u : Update) : (p.addUpdateRateLimited u).limits = p.limits :=
  limits_addUpdateAfter { p with outbound := { p.outbound with queue := p.outbound.queue.recordFailure u } } u _

@[simp] theorem limits_schedule (u : Update) : (p.schedule u).limits = p.limits := by
  unfold schedule
  split
  · rfl
  · exact limits_addUpdateAfter { p with draws := p.draws + 1 } u _

@[simp] theorem limits_fanOut (us : List Update) : (p.fanOut us).limits = p.limits := by
  unfold fanOut
  dsimp only
  split
  · rfl
  · exact limits_foldl _ limits_schedule _

/-! ### Handling one item -/

@[simp] theorem limits_handleChange (c : Change) : (p.handleChange c).limits = p.limits := by
  unfold handleChange
  cases Plan.ofChange p.cache c with
  | ok r => exact limits_fanOut _ _
  | error e => rfl

@[simp] theorem limits_settleAttempt (u : Update) (o : Border.Outcome) : (p.settleAttempt u o).limits = p.limits := by
  unfold settleAttempt
  dsimp only
  split
  · exact limits_addUpdateRateLimited _ u
  · rfl

@[simp] theorem limits_finishUpdate (t run : TaskId) (u : Update) : (p.finishUpdate t run u).limits = p.limits :=
  limits_withOutbound _ (by rw [SharedQueue.done, SharedQueue.queue_become, WorkQueue.limits_done]; rfl)

/-! ### Turns -/

@[simp] theorem limits_turnConsumer (t run : TaskId) (n : Nat) : (turnConsumer t run n p).limits = p.limits := by
  induction n generalizing p with
  | zero => rfl
  | succ n ih =>
    have hask : (p.withInbound ((p.inbound.consult t).1, (p.inbound.consult t).2.2)).limits = p.limits :=
      p.limits_withInbound (by rw [SharedQueue.queue_consult, WorkQueue.limits_take])
    unfold turnConsumer
    dsimp only
    split
    · exact hask
    · rw [limits_leave, hask]
    · rw [ih, limits_withInbound, limits_handleChange, hask]
      rw [SharedQueue.done, SharedQueue.queue_become, WorkQueue.limits_done]

@[simp] theorem limits_converse (t run : TaskId) (u : Update) (c : Border.Call Border.Outcome) :
    (converse t run u c p).1.limits = p.limits := by
  induction c generalizing p with
  | done o => rfl
  | ask q next ih =>
    unfold converse
    split
    · dsimp only
      split
      · exact p.limits_send q
      · exact p.limits_send q
    · exact ih _ p

@[simp] theorem limits_begin (t run : TaskId) (u : Update) : (begin t run u p).1.limits = p.limits := by
  have hconverse := limits_converse (p.note (Border.dispatch u).1) t run u (Border.dispatch u).2
  unfold begin
  split
  · exact limits_finishUpdate _ t run u
  · dsimp only
    generalize converse t run u (Border.dispatch u).2 (p.note (Border.dispatch u).1) = r at hconverse
    obtain ⟨p', outcome⟩ := r
    cases outcome with
    | none => exact hconverse
    | some o => exact (limits_finishUpdate _ t run u).trans ((limits_settleAttempt p' u o).trans hconverse)

@[simp] theorem limits_turnIdleWorker (t run : TaskId) (n : Nat) :
    (turnIdleWorker t run n p).limits = p.limits := by
  induction n generalizing p with
  | zero => rfl
  | succ n ih =>
    have hask : (p.withOutbound ((p.outbound.consult t).1, (p.outbound.consult t).2.2)).limits = p.limits :=
      p.limits_withOutbound (by rw [SharedQueue.queue_consult, WorkQueue.limits_take])
    unfold turnIdleWorker
    dsimp only
    split
    · exact hask
    · rw [limits_leave, hask]
    · rename_i u hu
      generalize p.withOutbound ((p.outbound.consult t).1, (p.outbound.consult t).2.2) = asked at hask
      have hbegin := (limits_begin asked t run u).trans hask
      generalize begin t run u asked = r at hbegin
      obtain ⟨p', goesOn⟩ := r
      cases goesOn with
      | true => exact (ih p').trans hbegin
      | false => exact hbegin

@[simp] theorem limits_turnWorker (t run : TaskId) (e : Option Exchange) :
    (p.turnWorker t run e).limits = p.limits := by
  unfold turnWorker
  cases e with
  | none => exact p.limits_turnIdleWorker t run _
  | some e =>
    have hconverse := p.limits_converse t run e.update (e.next e.answer)
    dsimp only
    split
    · rw [limits_turnIdleWorker, limits_finishUpdate]
      rfl
    · split
      · generalize converse t run e.update (e.next e.answer) p = r at hconverse
        obtain ⟨p', outcome⟩ := r
        cases outcome with
        | none => exact hconverse
        | some o =>
          rw [limits_turnIdleWorker, limits_finishUpdate, limits_settleAttempt]
          exact hconverse
      · rfl

@[simp] theorem limits_turnDrain (t : TaskId) (side : Side) (d : Drain) :
    (p.turnDrain t side d).1.limits = p.limits := by
  cases side with
  | inbound =>
    exact congrArg (fun l => (⟨p.settings, l, p.outbound.queue.limits⟩ : Limits))
      (d.limits_turn t p.inbound p.clock)
  | outbound =>
    exact congrArg (fun l => (⟨p.settings, p.inbound.queue.limits, l⟩ : Limits))
      (d.limits_turn t p.outbound p.clock)

@[simp] theorem limits_loseGrace (t : TaskId) (c : Closing) : (p.loseGrace t c).1.limits = p.limits := by
  unfold loseGrace
  dsimp only
  rw [limits_turnDrain]
  rfl

@[simp] theorem limits_turnClosing (t : TaskId) (side : Side) (c : Closing) :
    (p.turnClosing t side c).1.limits = p.limits := by
  have hdrain := p.limits_turnDrain t side c.drain
  unfold turnClosing
  dsimp only
  split
  · exact hdrain
  · split
    · exact hdrain
    · split
      · rw [limits_loseGrace, hdrain]
      · exact hdrain
    · exact hdrain

@[simp] theorem limits_startAll (t : TaskId) (side : Side) : (p.startAll t side).limits = p.limits := by
  cases side <;> exact limits_spawnMany _ _ _

@[simp] theorem limits_turnJoining (t : TaskId) (side : Side) : (p.turnJoining t side).limits = p.limits := by
  unfold turnJoining
  split <;> rfl

@[simp] theorem limits_turnRunClosing (t : TaskId) (side : Side) (c : Closing) :
    (p.turnRunClosing t side c).limits = p.limits := by
  have hclosing := p.limits_turnClosing t side c
  unfold turnRunClosing
  generalize p.turnClosing t side c = r at hclosing
  obtain ⟨p', c', ended⟩ := r
  cases ended with
  | true => exact (limits_turnJoining p' t side).trans hclosing
  | false => exact hclosing

@[simp] theorem limits_turnRunning (t : TaskId) (side : Side) : (p.turnRunning t side).limits = p.limits := by
  unfold turnRunning
  split
  · exact p.limits_turnRunClosing t side {}
  · rfl

@[simp] theorem limits_turnRun (t : TaskId) (side : Side) (phase : RunPhase) :
    (p.turnRun t side phase).limits = p.limits := by
  cases phase <;> simp [turnRun]

@[simp] theorem limits_turnShutDown (t : TaskId) (side : Side) (c : Closing) :
    (p.turnShutDown t side c).limits = p.limits := by
  have hclosing := p.limits_turnClosing t side c
  unfold turnShutDown
  generalize p.turnClosing t side c = r at hclosing
  obtain ⟨p', c', ended⟩ := r
  cases ended <;> exact hclosing

/-- **No turn of a task changes the limits.** -/
@[simp] theorem limits_turn (t : TaskId) : (turn t p).limits = p.limits := by
  unfold turn
  split
  · rfl
  · split
    · exact limits_withInbound _ (by rw [SharedQueue.land, SharedQueue.queue_become, WorkQueue.limits_land]; rfl)
    · rfl
  · split
    · exact limits_withOutbound _ (by rw [SharedQueue.land, SharedQueue.queue_become, WorkQueue.limits_land]; rfl)
    · rfl
  · exact p.limits_turnConsumer t _ _
  · exact p.limits_turnWorker t _ _
  · exact p.limits_turnRun t _ _
  · exact p.limits_turnShutDown t _ _

/-! ### Time and requests -/

theorem limits_settle (n : Nat) : (Tasks.settle n p).limits = p.limits := by
  induction n generalizing p with
  | zero => rfl
  | succ n ih =>
    unfold Tasks.settle
    split
    · rfl
    · exact (ih _).trans (limits_turn _ _)

theorem limits_runUntil (turns n moment : Nat) : (Tasks.runUntil turns n moment p).limits = p.limits := by
  induction n generalizing p with
  | zero => rfl
  | succ n ih =>
    have hsettle := p.limits_settle turns
    unfold Tasks.runUntil
    dsimp only
    split
    · exact hsettle
    · split
      · rw [ih, limits_settle]
        exact hsettle
      · exact hsettle

theorem limits_takeAll {α : Type} [BEq α] (n : Nat) (s : SharedQueue α) :
    (takeAll n s).1.queue.limits = s.queue.limits := by
  induction n generalizing s with
  | zero => rfl
  | succ n ih =>
    unfold takeAll
    split
    · rfl
    · dsimp only
      rw [ih, SharedQueue.done, SharedQueue.queue_become, WorkQueue.limits_done, SharedQueue.queue_become,
        WorkQueue.limits_take]

theorem limits_cancel (side : Side) : (p.cancel side).limits = p.limits := by
  cases side <;> rfl

/-- **No request changes the limits.** -/
theorem limits_apply (r : Request) : (p.apply r).limits = p.limits := by
  cases r with
  | start side => rfl
  | cancel side => exact p.limits_cancel side
  | shutDown side => rfl
  | fanOut us => exact p.limits_fanOut us
  | schedule u => exact p.limits_schedule u
  | retry u => exact p.limits_addUpdateRateLimited u
  | rateLimited c => exact p.limits_addChangeRateLimited c
  | enqueue c =>
    exact p.limits_withInbound (by rw [SharedQueue.add, SharedQueue.queue_become, WorkQueue.limits_add])
  | put key s nodes => rfl
  | takeOutbound =>
    unfold apply
    generalize turnBound = n
    exact p.limits_withOutbound (limits_takeAll n p.outbound)
  | takeInbound =>
    unfold apply
    generalize turnBound = n
    exact p.limits_withInbound (limits_takeAll n p.inbound)
  | advance millis => exact p.limits_runUntil _ _ _

/-! ## Every state -/

/-- **Move** of a pipeline: a request, the turn of a task, or the clock. -/
inductive Move where
  | request (r : Request)
  | turn (t : TaskId)
  | clock (c : Clock)

/-- The pipeline after a move. -/
def next (p : Pipeline) : Move → Pipeline
  | .request r => { p with drained := [] }.apply r
  | .turn t => Pipeline.turn t p
  | .clock c => { p with clock := c }

/-- The pipeline after a list of moves. -/
def run (p : Pipeline) (ms : List Move) : Pipeline :=
  ms.foldl next p

theorem limits_next (m : Move) : (p.next m).limits = p.limits := by
  cases m with
  | request r => exact limits_apply _ r
  | turn t => exact p.limits_turn t
  | clock c => rfl

/-- **The limits of a pipeline never change.** -/
theorem limits_run (ms : List Move) : (p.run ms).limits = p.limits :=
  limits_foldl p limits_next ms

/-- Letting tasks run until none is ready is a list of turns. -/
theorem settle_eq_run (n : Nat) : ∃ ms, Tasks.settle n p = p.run ms := by
  induction n generalizing p with
  | zero => exact ⟨[], rfl⟩
  | succ n ih =>
    unfold Tasks.settle
    split
    · exact ⟨[], rfl⟩
    · rename_i t c hpop
      obtain ⟨ms, hms⟩ := ih (Pipeline.turn t { p with clock := c })
      exact ⟨.clock c :: .turn t :: ms, hms⟩

/-- To serve a request is to make it and to let tasks run. -/
theorem serve_eq_run (r : Request) : ∃ ms, p.serve r = p.run (.request r :: ms) :=
  settle_eq_run _ _

/-- The limits of a new pipeline are those of its settings. -/
theorem limits_new (settings : Settings) (line : Border.Line) (scripts : Table String (List Border.Prepared)) :
    (new settings line scripts).limits = ⟨settings, settings.inbound.queue, settings.outbound.queue⟩ := rfl

end Pipeline

end BorderSync
