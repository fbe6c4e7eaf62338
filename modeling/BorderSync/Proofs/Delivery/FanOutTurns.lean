/-
# BorderSync.Proofs.Delivery.FanOutTurns -- that a pipeline scatters copies

What a pipeline does to its outbound queue when it fans updates out is a legal run of a scatter in which nobody
comes in between. The queue is left as the scatter leaves its own. For every copy with a delay a task begins,
which starts a timer that is due when the delay is over; the copy lands then.
-/
import BorderSync.Proofs.Delivery.Scatter
import BorderSync.Proofs.Relay.ConsumerTurn

namespace BorderSync.Pipeline

open Event

variable {p : Pipeline} {s : Scatter}

/-- The tasks that wait for the delays of what was sent. -/
def waits (sent : List (Update × Duration)) : List PipelineTask :=
  (sent.filter fun e => e.2.nanos ≠ 0).map fun e => .landUpdate e.1 e.2 false

theorem waits_cons (e : Update × Duration) (sent : List (Update × Duration)) :
    waits (e :: sent) = waits [e] ++ waits sent := by
  unfold waits
  rw [← List.map_append, ← List.filter_append, List.singleton_append]

/-- What adding an update does to an open queue, and which task it begins. -/
theorem addUpdateAfter_open (hopen : p.outbound.queue.closed = false) (u : Update) (d : Duration) :
    (p.addUpdateAfter u d).outbound.queue = p.outbound.queue.addAfter u d ∧
      (p.addUpdateAfter u d).tasks.map Prod.snd = p.tasks.map Prod.snd ++ waits [(u, d)] ∧
      (p.addUpdateAfter u d).settings = p.settings := by
  have hshown := p.shown_addUpdateAfter u d
  refine ⟨congrArg Shown.outbound hshown, ?_, congrArg Shown.settings hshown⟩
  unfold addUpdateAfter
  by_cases hzero : d.nanos = 0
  · have hadmission : p.outbound.queue.admission d = .now := by
      unfold WorkQueue.admission
      rw [if_pos hzero]
    have hnone : waits [(u, d)] = [] := by
      unfold waits
      rw [List.filter_cons_of_neg (by simpa using hzero)]
      rfl
    rw [hadmission, hnone, List.append_nil]
    rfl
  · have hadmission : p.outbound.queue.admission d = .later := by
      unfold WorkQueue.admission
      rw [if_neg hzero, hopen]
      rfl
    have hone : waits [(u, d)] = [.landUpdate u d false] := by
      unfold waits
      rw [List.filter_cons_of_pos (by simpa using hzero)]
      rfl
    rw [hadmission, hone]
    show (p.tasks ++ [(p.clock.nextTask, PipelineTask.landUpdate u d false)]).map Prod.snd = _
    rw [List.map_append]
    rfl

/-- What scheduling one copy does to an open queue, and which task it begins. -/
theorem schedule_addressed (hopen : p.outbound.queue.closed = false) {u : Update} (hhost : u.host ≠ "") :
    (p.schedule u).outbound.queue = p.outbound.queue.addAfter u (Scatter.delay p.settings p.draws) ∧
      (p.schedule u).tasks.map Prod.snd =
        p.tasks.map Prod.snd ++ waits [(u, Scatter.delay p.settings p.draws)] ∧
      (p.schedule u).settings = p.settings := by
  have hschedule : p.schedule u =
      { p with draws := p.draws + 1 }.addUpdateAfter u (Scatter.delay p.settings p.draws) := by
    unfold schedule
    rw [if_neg hhost]
    rfl
  rw [hschedule]
  exact addUpdateAfter_open (p := { p with draws := p.draws + 1 }) hopen u _

/-- **Scheduling copies is sending them**, one after the other. -/
theorem follows_schedules {us : List Update} (hs : s.Sound) (hqueue : s.floor.queue = p.outbound.queue)
    (hunsent : s.unsent = us) : ∃ rs : List Nat,
      (Scatter.machine p.settings).legal s (rs.map .send) = true ∧
      ((Scatter.machine p.settings).run s (rs.map .send)).unsent = [] ∧
      ((Scatter.machine p.settings).run s (rs.map .send)).floor.queue = (us.foldl schedule p).outbound.queue ∧
      (us.foldl schedule p).tasks.map Prod.snd = p.tasks.map Prod.snd
        ++ waits (Scatter.sentIn (Scatter.history p.settings s (rs.map .send))) := by
  induction us generalizing p s with
  | nil => exact ⟨[], rfl, hunsent, hqueue, by simp [waits, Scatter.sentIn, Scatter.history]⟩
  | cons u us ih =>
    have hhost : u.host ≠ "" := hs.addressed u (by rw [hunsent]; exact List.mem_cons_self)
    have hopen : p.outbound.queue.closed = false := hqueue ▸ hs.opened
    obtain ⟨houtbound, htasks, hsettings⟩ := schedule_addressed hopen hhost
    obtain ⟨hnext, hmarks⟩ := Scatter.next_send p.settings hs hunsent p.draws
    have ha : s.allows (.send p.draws) = true := by
      rw [Scatter.allows, hunsent]
      rfl
    have hsound := hs.next p.settings ha
    rw [hnext] at hsound
    obtain ⟨rs, hlegal, hnone, hsame, hwaits⟩ := ih (p := p.schedule u) hsound
      (by rw [houtbound, ← hqueue]; rfl) rfl
    rw [hsettings] at hlegal hnone hsame hwaits
    refine ⟨p.draws :: rs, ?_, ?_, ?_, ?_⟩
    · rw [List.map_cons, Machine.legal_cons]
      refine ⟨ha, ?_⟩
      show (Scatter.machine p.settings).legal (Scatter.next p.settings s (.send p.draws)) _ = true
      rw [hnext]
      exact hlegal
    · rw [List.map_cons, Machine.run_cons]
      show ((Scatter.machine p.settings).run (Scatter.next p.settings s (.send p.draws)) _).unsent = []
      rw [hnext]
      exact hnone
    · rw [List.map_cons, Machine.run_cons]
      show ((Scatter.machine p.settings).run (Scatter.next p.settings s (.send p.draws)) _).floor.queue = _
      rw [hnext]
      exact hsame
    · have hhistory : Scatter.history p.settings s ((p.draws :: rs).map .send) =
          .sent u (Scatter.delay p.settings p.draws) ::
            Scatter.history p.settings ⟨s.floor.addAfter u (Scatter.delay p.settings p.draws), us⟩ (rs.map .send) := by
        show Scatter.marks p.settings s (.send p.draws) ++
          Scatter.history p.settings (Scatter.next p.settings s (.send p.draws)) _ = _
        rw [hmarks, hnext]
        rfl
      rw [hhistory]
      show _ = _ ++ waits ((u, Scatter.delay p.settings p.draws) :: Scatter.sentIn _)
      rw [waits_cons, ← List.append_assoc, ← htasks]
      exact hwaits

/-- **A fan-out scatters**: it sends the copies that a scatter begins with. -/
theorem follows_fanOut {us : List Update} {floor : WorkQueue.Floor Update} (hfloor : floor.Sound)
    (hqueue : floor.queue = p.outbound.queue) (hopen : p.outbound.queue.closed = false)
    (hhosts : ∀ h ∈ p.settings.hosts, h ≠ "") : ∃ (token : Nat → Nat → String) (rs : List Nat),
      (Scatter.machine p.settings).legal (.start p.settings floor us token) (rs.map .send) = true ∧
      ((Scatter.machine p.settings).run (.start p.settings floor us token) (rs.map .send)).unsent = [] ∧
      ((Scatter.machine p.settings).run (.start p.settings floor us token) (rs.map .send)).floor.queue =
        (p.fanOut us).outbound.queue ∧
      (p.fanOut us).tasks.map Prod.snd = p.tasks.map Prod.snd ++
        waits (Scatter.sentIn (Scatter.history p.settings (.start p.settings floor us token) (rs.map .send))) := by
  have hbefore : (p.beforeCopies us).settings = p.settings ∧ (p.beforeCopies us).outbound = p.outbound ∧
      (p.beforeCopies us).tasks = p.tasks := by
    unfold beforeCopies
    split <;> exact ⟨rfl, rfl, rfl⟩
  obtain ⟨hsettings, houtbound, htasks⟩ := hbefore
  have hsound := Scatter.Sound.start p.settings hfloor (hqueue ▸ hopen) hhosts us
    (Delivery.consecutiveTokens p.draws us.length)
  obtain ⟨rs, hlegal, hnone, hsame, hwaits⟩ := follows_schedules (p := p.beforeCopies us) hsound
    (by rw [houtbound]; exact hqueue) rfl
  rw [hsettings] at hlegal hnone hsame hwaits
  rw [htasks] at hwaits
  refine ⟨Delivery.consecutiveTokens p.draws us.length, rs, hlegal, hnone, ?_, ?_⟩
  · rw [fanOut_eq]
    exact hsame
  · rw [fanOut_eq]
    exact hwaits

/-- Without hosts there is a report and nothing else. -/
theorem fanOut_nobody (hnobody : p.settings.hosts = []) (us : List Update) :
    p.fanOut us = p.note [Delivery.noHostsReport us] := by
  unfold fanOut
  rw [hnobody]
  rfl

/-- The task that was begun for a copy starts its timer. -/
theorem startTimer_landUpdate {t : TaskId} {u : Update} {wait : Duration}
    (ht : p.tasks.lookup t = some (.landUpdate u wait false)) :
    (p.turn t).clock.timers = p.clock.timers ++ [⟨p.clock.now + wait.ceilMillis, t⟩] ∧
      (p.turn t).outbound = p.outbound := by
  unfold turn
  rw [ht]
  exact ⟨rfl, rfl⟩

end BorderSync.Pipeline
