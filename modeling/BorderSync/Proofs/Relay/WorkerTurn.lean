/-
# BorderSync.Proofs.Relay.WorkerTurn -- the turn of a worker

A worker goes on until it waits for an answer, or until the outbound queue has nothing for it. A request
that cannot be sent is answered at once, in the same turn.
-/
import BorderSync.Proofs.Relay.Agreement

namespace BorderSync

open Event

namespace Pipeline

/-- A task does what it was set to. -/
theorem eq_of_lookup_setTask (p : Pipeline) {t : TaskId} {task other : PipelineTask}
    (h : (p.setTask t task).tasks.lookup t = some other) : other = task := by
  have hset : ∀ tasks : List (TaskId × PipelineTask),
      (tasks.map fun e => if e.1 == t then (t, task) else e).lookup t = some other → other = task := by
    intro tasks hlookup
    induction tasks with
    | nil => exact absurd hlookup (by simp)
    | cons e tasks ih =>
      rw [List.map_cons] at hlookup
      by_cases he : e.1 == t
      · rw [if_pos he, List.lookup_cons_self] at hlookup
        exact (Option.some.inj hlookup).symm
      · have hte : (t == e.1) = false := Bool.eq_false_iff.mpr fun ht => he (BEq.symm ht)
        rw [if_neg he, List.lookup_cons, hte] at hlookup
        exact ih hlookup
  exact hset p.tasks h

/-- A task that has left is gone. -/
theorem lookup_leave (p : Pipeline) (t run : TaskId) : (p.leave t run).tasks.lookup t = none := by
  have hleft : (p.leave t run).tasks = p.tasks.filter fun e => e.1 != t := by
    unfold leave
    dsimp only
    split <;> rfl
  rw [hleft, List.lookup_eq_none_iff]
  intro e he
  obtain ⟨-, hne⟩ := List.mem_filter.mp he
  rwa [bne_comm] at hne

section Awaiting

variable (p : Pipeline) (t run : TaskId) (u : Update) (q : Border.Request)
  (next : Border.Answer → Border.Call Border.Outcome)

/-- What a task waits for that has sent a request. -/
def awaited : Exchange :=
  ⟨u, (p.send q).1, next, (p.send q).2.2.clock.now + (p.send q).2.1⟩

/-- A request is sent, and a task waits for the answer. -/
def awaiting : Pipeline :=
  let p' := (p.send q).2.2.setTask t (.worker run (some (p.awaited u q next)))
  if (p.send q).2.1 = 0 then p'.wakeAll [t] else p'.startTimer t (p.awaited u q next).due

theorem shown_awaiting : (p.awaiting t run u q next).shown = p.shown := by
  refine Eq.trans ?_ (p.shown_send q)
  unfold awaiting
  by_cases hmillis : (p.send q).2.1 = 0
  · rw [if_pos hmillis, shown_wakeAll, shown_setTask]
  · rw [if_neg hmillis]
    rfl

/-- Whether the answer is there at once or later, the task waits for it. -/
theorem tasks_awaiting :
    (p.awaiting t run u q next).tasks =
      ((p.send q).2.2.setTask t (.worker run (some (p.awaited u q next)))).tasks := by
  unfold awaiting
  split <;> rfl

end Awaiting

end Pipeline

/-- What goes on to a stage is at that stage. -/
theorem Station.stage_self (s : Station) (u : Update) (stage : Handling) :
    (s.turn u stage).stage? u = some stage :=
  s.shift.stage_self u stage

namespace Relay

variable {p : Pipeline} {s : Relay} {u : Update}

/-! ## An update in hand -/

/-- A worker asks. -/
theorem follows_take (h : Agrees p s) (hfree : 0 < s.station.shift.crew.free) (t : TaskId) :
    Follows p (p.withOutbound ((p.outbound.consult t).1, (p.outbound.consult t).2.2)) s
      { s with station := { s.station with shift := s.station.shift.ask .fresh } } := by
  have hqueue : p.outbound.queue = s.station.queue := congrArg Shown.outbound h
  refine .station (m := .ask) h (decide_eq_true hfree) (by simp) rfl ?_ rfl rfl
  rw [Pipeline.shown_withOutbound, SharedQueue.queue_consult, hqueue,
    ← s.station.shift.queue_ask .fresh, List.flatMap_nil, Pipeline.stamped_nil, List.append_nil]
  rfl

/-- A worker is done with its update. -/
theorem follows_finish (h : Agrees p s) (hstage : s.station.stage? u = some .settled) (t run : TaskId) :
    Follows p (p.finishUpdate t run u) s
      { s with station := { s.station with shift := s.station.shift.done u } } := by
  have hqueue : p.outbound.queue = s.station.queue := congrArg Shown.outbound h
  refine .station (m := .done u) h (by rw [Station.allows, hstage]) (by simp) rfl ?_ rfl rfl
  rw [Pipeline.finishUpdate, Pipeline.shown_withOutbound, SharedQueue.done, SharedQueue.queue_become,
    hqueue, List.flatMap_nil, Pipeline.stamped_nil, List.append_nil]
  rfl

/-- A worker leaves its update undone. -/
theorem follows_abandon (h : Agrees p s) (ha : s.station.allows p.settings (.abandon u) = true) :
    Follows p (p.abandon u) s { s with station := (s.station.abandon u).1 } := by
  have hqueue : p.outbound.queue = s.station.queue := congrArg Shown.outbound h
  refine .station (m := .abandon u) h ha (by simp) rfl ?_ rfl rfl
  exact congrArg (fun q : WorkQueue Update => { p.shown with
    outbound := q.forget u
    reports := p.reports ++ p.stamped [Delivery.abandonReport u] }) hqueue

/-- A worker adds its update again. -/
theorem follows_readd {wait : Duration} (h : Agrees p s)
    (hstage : s.station.stage? u = some (.again wait)) :
    Follows p (p.addUpdateAfter u wait) s
      { s with station := (s.station.use (.addAfter u wait)).turn u .settled } := by
  have hqueue : p.outbound.queue = s.station.queue := congrArg Shown.outbound h
  have hact : s.station.act p.settings (.readd u) =
      ((s.station.use (.addAfter u wait)).turn u .settled,
        if s.station.queue.closed then [.refused u (s.station.refusalReports wait)]
        else [.readded u wait]) := by
    rw [Station.act, Station.readd, hstage]
  refine .station h (by rw [Station.allows, hstage]) (by simp) hact ?_ rfl rfl
  rw [Pipeline.shown_addUpdateAfter, Station.reports_taken rfl rfl, refusalReports_eq h, hqueue]
  rfl

/-! ## An attempt that is over -/

section Over

/-- What is reported when an attempt is over. -/
def outcomeReports (p : Pipeline) (u : Update) (o : Border.Outcome) : List Report :=
  o.reports ++
    Delivery.attemptReports p.settings.outbound.retryCount (p.outbound.queue.requeues u) u o.result

variable {o : Border.Outcome} (h : Agrees p s)
  (hstage : s.station.stage? u = some (.asking (.done o)))

include h hstage

/-- The attempt ends the work on its update. -/
theorem follows_last {v : Delivery.Verdict}
    (hv : Delivery.verdict p.settings.outbound.retryCount (p.outbound.queue.requeues u) o.result = v)
    (hover : ∀ k, v ≠ .again k) :
    Follows p (p.settleAttempt u o) s
      { s with station := (s.station.use (.forget u)).turn u .settled } := by
  have hqueue : p.outbound.queue = s.station.queue := congrArg Shown.outbound h
  have hsettle : p.settleAttempt u o =
      { p.note (outcomeReports p u o) with outbound := p.outbound.forget u } := by
    unfold Pipeline.settleAttempt
    dsimp only
    rw [hv]
    cases v with
    | again k => exact absurd rfl (hover k)
    | _ => rfl
  have hact : s.station.act p.settings (.settle u) =
      ((s.station.use (.forget u)).turn u .settled, [.judged u v (outcomeReports p u o)]) := by
    rw [Station.act, Station.settle, hstage, outcomeReports, ← hqueue]
    dsimp only
    rw [hv]
    cases v with
    | again k => exact absurd rfl (hover k)
    | _ => rfl
  refine .station h (by rw [Station.allows, hstage]) (by simp) hact ?_ rfl rfl
  rw [hsettle, List.flatMap_singleton]
  exact congrArg (fun q : WorkQueue Update => { p.shown with
    outbound := q.forget u
    reports := p.reports ++ p.stamped (outcomeReports p u o) }) hqueue

/-- The attempt is to be repeated: its failure is counted, and then its update is added again. -/
theorem follows_repeated {k : Nat}
    (hv : Delivery.verdict p.settings.outbound.retryCount (p.outbound.queue.requeues u) o.result =
      .again k) :
    ∃ s', Follows p (p.settleAttempt u o) s s' ∧ s'.station.stage? u = some .settled := by
  have hqueue : p.outbound.queue = s.station.queue := congrArg Shown.outbound h
  let wait := p.outbound.queue.backoff.wait u
  let p₁ := { p.note (outcomeReports p u o) with
    outbound := { p.outbound with queue := p.outbound.queue.recordFailure u } }
  let t₁ := (s.station.use (.recordFailure u)).turn u (.again wait)
  have hsettle : p.settleAttempt u o = p₁.addUpdateAfter u wait := by
    unfold Pipeline.settleAttempt
    dsimp only
    rw [hv]
    rfl
  have hact : s.station.act p.settings (.settle u) =
      (t₁, [.judged u (.again k) (outcomeReports p u o)]) := by
    rw [Station.act, Station.settle, hstage, outcomeReports, ← hqueue]
    dsimp only
    rw [hv]
  have hjudge : Follows p p₁ s { s with station := t₁ } := by
    refine .station h (by rw [Station.allows, hstage]) (by simp) hact ?_ rfl rfl
    rw [List.flatMap_singleton]
    exact congrArg (fun q : WorkQueue Update => { p.shown with
      outbound := q.recordFailure u
      reports := p.reports ++ p.stamped (outcomeReports p u o) }) hqueue
  have hreadd := follows_readd hjudge.agrees (Station.stage_self _ u (.again wait))
  rw [hsettle]
  exact ⟨_, hjudge.trans hreadd, Station.stage_self _ u .settled⟩

/-- The worker draws its conclusion from an attempt. -/
theorem follows_settleAttempt :
    ∃ s', Follows p (p.settleAttempt u o) s s' ∧ s'.station.stage? u = some .settled := by
  cases hv : Delivery.verdict p.settings.outbound.retryCount (p.outbound.queue.requeues u) o.result with
  | again k => exact follows_repeated h hstage hv
  | applied => exact ⟨_, follows_last h hstage hv (by simp), Station.stage_self _ u .settled⟩
  | givenUp k => exact ⟨_, follows_last h hstage hv (by simp), Station.stage_self _ u .settled⟩

end Over

/-! ## An attempt in progress -/

/-- An attempt begins. -/
theorem follows_begin (h : Agrees p s) (hstage : s.station.stage? u = some .fresh)
    (hgoing : s.station.hardStop = false) :
    Follows p (p.note (Border.dispatch u).1) s
      { s with station := s.station.turn u (.asking (Border.dispatch u).2) } := by
  have hqueue : p.outbound.queue = s.station.queue := congrArg Shown.outbound h
  have ha : s.station.allows p.settings (.begin u) = true := by
    rw [Station.allows, hstage]
    simp [hgoing]
  refine .station h ha (by simp) rfl ?_ rfl rfl
  rw [Pipeline.shown_note, List.flatMap_cons, Station.reports_requestMarks, List.append_nil]
  exact congrArg (fun q : WorkQueue Update => { p.shown with
    outbound := q
    reports := p.reports ++ p.stamped (Border.dispatch u).1 }) hqueue

/-- An attempt goes on with an answer. -/
theorem follows_answer {q : Border.Request} {next : Border.Answer → Border.Call Border.Outcome}
    (h : Agrees p s) (hstage : s.station.stage? u = some (.asking (.ask q next)))
    (hgoing : s.station.hardStop = false) (a : Border.Answer) :
    Follows p p s { s with station := s.station.turn u (.asking (next a)) } := by
  have hqueue : p.outbound.queue = s.station.queue := congrArg Shown.outbound h
  have ha : s.station.allows p.settings (.answer u a) = true := by
    rw [Station.allows, hstage]
    simp [hgoing]
  have hact : s.station.act p.settings (.answer u a) =
      (s.station.turn u (.asking (next a)), Station.requestMarks u (next a)) := by
    rw [Station.act, Station.answer, hstage]
  refine .station h ha (by simp) hact ?_ rfl rfl
  rw [Station.reports_requestMarks, Pipeline.stamped_nil, List.append_nil]
  exact congrArg (fun q : WorkQueue Update => { p.shown with outbound := q }) hqueue

/-! ## Turns -/

/-- **Manned**: the station has a worker that asks for an update, or one that waits for this answer. -/
def Manned (s : Station) : Option Exchange → Prop
  | none => 0 < s.shift.crew.free
  | some e => ∃ q, s.stage? e.update = some (.asking (.ask q e.next))

/-- **Serves**: if the task of a worker has not ended, the station has that worker. -/
def Serves (p : Pipeline) (s : Relay) (t run : TaskId) : Prop :=
  ∀ e, p.tasks.lookup t = some (.worker run e) → Manned s.station e

/-- **Idle**: a worker without an update. -/
structure Idle (p : Pipeline) (s : Relay) (t run : TaskId) : Prop where
  free : 0 < s.station.shift.crew.free
  unbound : ∀ e, p.tasks.lookup t = some (.worker run e) → e = none

theorem Idle.serves {t run : TaskId} (h : Idle p s t run) : Serves p s t run := by
  intro e he
  rw [h.unbound e he]
  exact h.free

/-- A worker that is done with its update is idle. -/
theorem idle_finish (p : Pipeline) (s : Relay) (u : Update) (t run : TaskId) :
    Idle (p.finishUpdate t run u)
      { s with station := { s.station with shift := s.station.shift.done u } } t run where
  free := Nat.succ_pos _
  unbound e he := by
    have htask : PipelineTask.worker run e = .worker run none := p.eq_of_lookup_setTask he
    exact (PipelineTask.worker.inj htask).2

/-- **Came to**: a worker waits for an answer in a conversation, or the attempt is over. -/
def CameTo (s : Relay) (t run : TaskId) (u : Update) : Pipeline × Option Border.Outcome → Prop
  | (p, none) => Serves p s t run
  | (_, some o) => s.station.stage? u = some (.asking (.done o))

/-- A conversation goes on until it waits for an answer or is over. -/
theorem follows_converse (t run : TaskId) (call : Border.Call Border.Outcome) (h : Agrees p s)
    (hstage : s.station.stage? u = some (.asking call)) (hgoing : s.station.hardStop = false) :
    ∃ s', Follows p (Pipeline.converse t run u call p).1 s s' ∧
      CameTo s' t run u (Pipeline.converse t run u call p) := by
  induction call generalizing s with
  | done o => exact ⟨s, .refl h, hstage⟩
  | ask q next ih =>
    unfold Pipeline.converse
    by_cases hscheme : q.location.scheme = "http" ∨ q.location.scheme = "https"
    · rw [if_pos hscheme]
      refine ⟨s, .of_shown h (p.shown_awaiting t run u q next), fun e he => ?_⟩
      have hlookup : (p.awaiting t run u q next).tasks.lookup t = some (.worker run e) := he
      rw [Pipeline.tasks_awaiting] at hlookup
      obtain rfl := (PipelineTask.worker.inj ((p.send q).2.2.eq_of_lookup_setTask hlookup)).2
      exact ⟨q, hstage⟩
    · rw [if_neg hscheme]
      have hanswer := follows_answer h hstage hgoing (.error .unsupportedScheme)
      obtain ⟨s', hrest, hcame⟩ := ih (.error .unsupportedScheme) hanswer.agrees
        (Station.stage_self _ u _) hgoing
      exact ⟨s', hanswer.trans hrest, hcame⟩

/-- A worker draws its conclusion from an attempt and is idle. -/
theorem follows_conclude {o : Border.Outcome} (h : Agrees p s)
    (hstage : s.station.stage? u = some (.asking (.done o))) (t run : TaskId) :
    ∃ s', Follows p ((p.settleAttempt u o).finishUpdate t run u) s s' ∧
      Idle ((p.settleAttempt u o).finishUpdate t run u) s' t run := by
  obtain ⟨s₁, hsettle, hsettled⟩ := follows_settleAttempt h hstage
  exact ⟨_, hsettle.trans (follows_finish hsettle.agrees hsettled t run), idle_finish _ _ u t run⟩

/-- A worker leaves its update undone and is idle. -/
theorem follows_desert (h : Agrees p s) (ha : s.station.allows p.settings (.abandon u) = true)
    (t run : TaskId) :
    ∃ s', Follows p ((p.abandon u).finishUpdate t run u) s s' ∧
      Idle ((p.abandon u).finishUpdate t run u) s' t run := by
  have habandon := follows_abandon h ha
  exact ⟨_, habandon.trans (follows_finish habandon.agrees (Station.stage_self _ u .settled) t run),
    idle_finish _ _ u t run⟩

/-- **Begun**: a worker is done with its update at once, or waits for an answer. -/
def Begun (s : Relay) (t run : TaskId) : Pipeline × Bool → Prop
  | (p, true) => Idle p s t run
  | (p, false) => Serves p s t run

/-- A worker begins with its update. -/
theorem follows_handle (h : Agrees p s) (hstage : s.station.stage? u = some .fresh) (t run : TaskId) :
    ∃ s', Follows p (p.begin t run u).1 s s' ∧ Begun s' t run (p.begin t run u) := by
  have hhard : p.hardStop = s.station.hardStop := congrArg Shown.hardStop h
  unfold Pipeline.begin
  by_cases hgoing : p.hardStop = true
  · rw [if_pos hgoing]
    have ha : s.station.allows p.settings (.abandon u) = true := by
      rw [Station.allows, hstage]
      exact hhard ▸ hgoing
    exact follows_desert h ha t run
  · rw [if_neg hgoing]
    have hgoing' : s.station.hardStop = false := hhard ▸ Bool.eq_false_iff.mpr hgoing
    have hbegin := follows_begin h hstage hgoing'
    obtain ⟨s₁, hconverse, hcame⟩ := follows_converse t run (Border.dispatch u).2
      hbegin.agrees (Station.stage_self _ u _) hgoing'
    dsimp only
    rcases hcall : Pipeline.converse t run u (Border.dispatch u).2 (p.note (Border.dispatch u).1) with
      ⟨p₁, _ | o⟩
    · rw [hcall] at hconverse hcame
      exact ⟨s₁, hbegin.trans hconverse, hcame⟩
    · rw [hcall] at hconverse hcame
      obtain ⟨s₂, hconclude, hidle⟩ := follows_conclude hconverse.agrees hcame t run
      exact ⟨s₂, (hbegin.trans hconverse).trans hconclude, hidle⟩

/-- A worker goes on asking until it waits for an answer or the queue has nothing for it. -/
theorem follows_turnIdleWorker (t run : TaskId) (n : Nat) (h : Agrees p s) (hidle : Idle p s t run) :
    ∃ s', Follows p (Pipeline.turnIdleWorker t run n p) s s' ∧
      Serves (Pipeline.turnIdleWorker t run n p) s' t run := by
  induction n generalizing p s with
  | zero => exact ⟨s, .refl h, hidle.serves⟩
  | succ n ih =>
    have htake := follows_take h hidle.free t
    have hqueue : p.outbound.queue = s.station.queue := congrArg Shown.outbound h
    rw [Pipeline.turnIdleWorker]
    dsimp only
    rw [SharedQueue.hand_consult]
    cases hhand : p.outbound.queue.hand with
    | notYet =>
      refine ⟨_, htake, fun e he => ?_⟩
      rw [hidle.unbound e he]
      show 0 < s.station.shift.crew.ask.free
      rw [WorkQueue.Crew.ask, ← show p.outbound.queue = s.station.shift.crew.floor.queue from hqueue, hhand]
      exact hidle.free
    | finished =>
      refine ⟨_, htake.trans (.of_shown htake.agrees (Pipeline.shown_leave _ t run)), fun e he => ?_⟩
      rw [Pipeline.lookup_leave] at he
      exact absurd he (by simp)
    | item u =>
      have hhand' : s.station.shift.queue.hand = .item u := (congrArg WorkQueue.hand hqueue).symm.trans hhand
      obtain ⟨s₁, hhandle, hbegun⟩ :=
        follows_handle htake.agrees (Shift.stage_of_hand hhand' .fresh) t run
      dsimp only
      rcases hbegin : Pipeline.begin t run u
        (p.withOutbound ((p.outbound.consult t).1, (p.outbound.consult t).2.2)) with ⟨p₁, _ | _⟩
      · rw [hbegin] at hhandle hbegun
        exact ⟨s₁, htake.trans hhandle, hbegun⟩
      · rw [hbegin] at hhandle hbegun
        obtain ⟨s₂, hrest, hserves⟩ := ih hhandle.agrees hbegun
        exact ⟨s₂, (htake.trans hhandle).trans hrest, hserves⟩

/-- **The turn of a worker** is a list of moves of a relay. -/
theorem follows_turnWorker {t run : TaskId} {e : Option Exchange} (h : Agrees p s)
    (htask : p.tasks.lookup t = some (.worker run e)) (hmanned : Manned s.station e) :
    ∃ s', Follows p (p.turnWorker t run e) s s' ∧ Serves (p.turnWorker t run e) s' t run := by
  have hhard : p.hardStop = s.station.hardStop := congrArg Shown.hardStop h
  have hserves : Serves p s t run := by
    intro e' he'
    obtain rfl := (PipelineTask.worker.inj (Option.some.inj (htask.symm.trans he'))).2
    exact hmanned
  cases e with
  | none =>
    refine follows_turnIdleWorker t run _ h ⟨hmanned, fun e' he' => ?_⟩
    exact (PipelineTask.worker.inj (Option.some.inj (htask.symm.trans he'))).2.symm
  | some e =>
    obtain ⟨q, hstage⟩ := hmanned
    unfold Pipeline.turnWorker
    dsimp only
    by_cases hgoing : p.hardStop = true
    · rw [if_pos hgoing]
      have ha : s.station.allows p.settings (.abandon e.update) = true := by
        rw [Station.allows, hstage]
        exact hhard ▸ hgoing
      have hstop : Follows p { p with clock := p.clock.stopAll t } s s := .of_shown h rfl
      obtain ⟨s₁, hdesert, hidle⟩ := follows_desert hstop.agrees ha t run
      obtain ⟨s₂, hrest, hserves⟩ := follows_turnIdleWorker t run Pipeline.turnBound hdesert.agrees hidle
      exact ⟨s₂, (hstop.trans hdesert).trans hrest, hserves⟩
    · rw [if_neg hgoing]
      have hgoing' : s.station.hardStop = false := hhard ▸ Bool.eq_false_iff.mpr hgoing
      by_cases hdue : e.due ≤ p.clock.now
      · rw [if_pos hdue]
        have hanswer := follows_answer h hstage hgoing' e.answer
        obtain ⟨s₁, hconverse, hcame⟩ := follows_converse t run (e.next e.answer)
          hanswer.agrees (Station.stage_self _ e.update _) hgoing'
        rcases hcall : Pipeline.converse t run e.update (e.next e.answer) p with ⟨p₁, _ | o⟩
        · rw [hcall] at hconverse hcame
          exact ⟨s₁, hanswer.trans hconverse, hcame⟩
        · rw [hcall] at hconverse hcame
          obtain ⟨s₂, hconclude, hidle⟩ := follows_conclude hconverse.agrees hcame t run
          obtain ⟨s₃, hrest, hserves⟩ :=
            follows_turnIdleWorker t run Pipeline.turnBound hconclude.agrees hidle
          exact ⟨s₃, (hanswer.trans hconverse).trans (hconclude.trans hrest), hserves⟩
      · rw [if_neg hdue]
        exact ⟨s, .refl h, hserves⟩

end Relay

end BorderSync
