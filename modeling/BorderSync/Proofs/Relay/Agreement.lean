/-
# BorderSync.Proofs.Relay.Agreement -- that a pipeline does what a relay does

A pipeline gives turns to tasks; a relay leaves open who moves next. Here each piece of work that a task
does without a break is shown to be a legal list of moves of a relay. What is **shown** by both agrees
before and after: the queues, the cache, patience, the moment, and all that the pipeline has reported.
-/
import BorderSync.Pipeline.Turns
import BorderSync.Proofs.Relay.Basic

namespace BorderSync

open Event

/-- **Shown**: what can be seen of a pipeline and of a relay. -/
structure Shown where
  settings : Settings
  inbound : WorkQueue Change
  outbound : WorkQueue Update
  cache : Cluster.Cache
  hardStop : Bool
  now : Nat
  reports : List (Nat × Report)

namespace SharedQueue

variable {α : Type}

theorem queue_calls (s : SharedQueue α) (cs : List WorkQueue.Call) : (s.calls cs).1.queue = s.queue := by
  induction cs generalizing s with
  | nil => rfl
  | cons c cs ih => cases c <;> exact ih _

/-- Calls leave the queue as it is. -/
@[simp] theorem queue_become (s : SharedQueue α) (q : WorkQueue α) (cs : List WorkQueue.Call) :
    (s.become q cs).1.queue = q :=
  queue_calls _ cs

variable [BEq α]

/-- A consumer that asks leaves the queue as taking does, also if there is nothing to take. -/
theorem queue_consult (s : SharedQueue α) (t : TaskId) : (s.consult t).1.queue = s.queue.take := by
  unfold consult
  cases hw : s.queue.waiting with
  | cons x rest =>
    rw [(s.queue.hand_eq_item_iff x).mpr ⟨rest, hw⟩]
    exact queue_become _ _ _
  | nil =>
    rw [WorkQueue.hand_of_empty hw]
    cases s.queue.closed && s.queue.delayed == 0 with
    | true => exact queue_become _ _ _
    | false => exact (WorkQueue.take_of_empty hw).symm

/-- A consumer gets what the queue has for it. -/
theorem hand_consult (s : SharedQueue α) (t : TaskId) : (s.consult t).2.1 = s.queue.hand := by
  unfold consult
  cases s.queue.hand <;> rfl

end SharedQueue

namespace Clock

theorem now_wake (c : Clock) (t : TaskId) : (c.wake t).now = c.now := by
  unfold wake
  split <;> rfl

@[simp] theorem now_wakeAll (c : Clock) (ts : List TaskId) : (c.wakeAll ts).now = c.now := by
  unfold wakeAll
  induction ts generalizing c with
  | nil => rfl
  | cons t ts ih => exact (ih _).trans (c.now_wake t)

end Clock

/-! ## What is seen of a pipeline -/

namespace Pipeline

/-- What is seen of a pipeline. -/
def shown (p : Pipeline) : Shown :=
  ⟨p.settings, p.inbound.queue, p.outbound.queue, p.cache, p.hardStop, p.clock.now, p.reports⟩

/-- Reports with the present moment. -/
def stamped (p : Pipeline) (rs : List Report) : List (Nat × Report) :=
  rs.map fun r => (p.clock.now, r)

@[simp] theorem stamped_nil (p : Pipeline) : p.stamped [] = [] := rfl

theorem stamped_append (p : Pipeline) (rs rs' : List Report) :
    p.stamped (rs ++ rs') = p.stamped rs ++ p.stamped rs' :=
  List.map_append

@[simp] theorem shown_note (p : Pipeline) (rs : List Report) :
    (p.note rs).shown = { p.shown with reports := p.reports ++ p.stamped rs } := rfl

@[simp] theorem shown_setTask (p : Pipeline) (t : TaskId) (task : PipelineTask) :
    (p.setTask t task).shown = p.shown := rfl

@[simp] theorem shown_spawn (p : Pipeline) (task : PipelineTask) : (p.spawn task).shown = p.shown :=
  congrArg (fun now => { p.shown with now := now }) (Clock.now_wake _ _)

@[simp] theorem shown_wakeAll (p : Pipeline) (ts : List TaskId) : (p.wakeAll ts).shown = p.shown :=
  congrArg (fun now => { p.shown with now := now }) (p.clock.now_wakeAll ts)

@[simp] theorem shown_withInbound (p : Pipeline) (r : SharedQueue Change × List TaskId) :
    (p.withInbound r).shown = { p.shown with inbound := r.1.queue } :=
  shown_wakeAll _ _

@[simp] theorem shown_withOutbound (p : Pipeline) (r : SharedQueue Update × List TaskId) :
    (p.withOutbound r).shown = { p.shown with outbound := r.1.queue } :=
  shown_wakeAll _ _

theorem shown_leave (p : Pipeline) (t run : TaskId) : (p.leave t run).shown = p.shown := by
  unfold leave
  dsimp only
  split
  · exact shown_wakeAll _ _
  · rfl

theorem shown_send (p : Pipeline) (q : Border.Request) : (p.send q).2.2.shown = p.shown := by
  unfold send
  split <;> rfl

/-- What the outbound queue reports about an update that it does not take. -/
def refusalReports (p : Pipeline) (delay : Duration) : List Report :=
  if p.outbound.queue.admission delay = .refused then
    [.warn (SharedQueue.refusalText p.outbound.queue)]
  else []

theorem shown_addUpdateAfter (p : Pipeline) (u : Update) (delay : Duration) :
    (p.addUpdateAfter u delay).shown =
      { p.shown with
        outbound := p.outbound.queue.addAfter u delay
        reports := p.reports ++ p.stamped (p.refusalReports delay) } := by
  have hnone : p.reports ++ p.stamped [] = p.reports := List.append_nil _
  unfold addUpdateAfter refusalReports WorkQueue.addAfter
  cases p.outbound.queue.admission delay with
  | now =>
    rw [if_neg (by simp), hnone]
    refine (shown_withOutbound _ _).trans ?_
    rw [SharedQueue.add, SharedQueue.queue_become]
    rfl
  | later =>
    rw [if_neg (by simp), hnone]
    exact shown_spawn _ _
  | refused =>
    rw [if_pos rfl]
    rfl

end Pipeline

/-! ## What is seen of a relay -/

namespace Station

/-- The reports that come with a mark. -/
def Mark.reports : Mark → List Report
  | .dropped _ rs => rs
  | .turnedAway _ rs => rs
  | .dispatched _ rs => rs
  | .judged _ _ rs => rs
  | .refused _ rs => rs
  | .abandoned _ _ rs => rs
  | .hurried _ rs => rs
  | _ => []

/-- An open queue takes every delay. -/
theorem refusalReports_of_open {s : Station} (h : s.queue.closed = false) (delay : Duration) :
    s.refusalReports delay = [] := by
  unfold refusalReports WorkQueue.admission
  rw [h]
  by_cases hdelay : delay.nanos = 0
  · rw [if_pos hdelay]
  · rw [if_neg hdelay]
    rfl

/-- What the queue does not take is reported, and nothing else. -/
theorem reports_taken {s : Station} {delay : Duration} {refused taken : Mark}
    (hrefused : refused.reports = s.refusalReports delay) (htaken : taken.reports = []) :
    (if s.queue.closed then [refused] else [taken]).flatMap Mark.reports = s.refusalReports delay := by
  cases hclosed : s.queue.closed with
  | true => rw [if_pos rfl, List.flatMap_singleton, hrefused]
  | false =>
    rw [if_neg Bool.false_ne_true, List.flatMap_singleton, htaken, refusalReports_of_open hclosed]

/-- Scheduling touches the queue alone. -/
theorem schedule_keeps (s : Station) (settings : Settings) (u : Update) (r : Nat) :
    (s.schedule settings u r).1.hardStop = s.hardStop ∧ (s.schedule settings u r).1.now = s.now := by
  -- the delay is kept as a whole: nothing is to be computed from its digits
  obtain ⟨delay, marks, hnext⟩ : ∃ delay marks, s.schedule settings u r =
      if u.host = "" then (s, [.dropped u [Delivery.noHostReport u]])
      else (s.use (.addAfter u delay), marks) :=
    ⟨_, _, rfl⟩
  rw [hnext]
  by_cases hhost : u.host = ""
  · rw [if_pos hhost]
    exact ⟨rfl, rfl⟩
  · rw [if_neg hhost]
    exact ⟨rfl, rfl⟩

/-- Requests alone report nothing. -/
theorem reports_requestMarks (u : Update) (call : Border.Call Border.Outcome) :
    (requestMarks u call).flatMap Mark.reports = [] := by
  cases call <;> rfl

end Station

namespace Relay

/-- The reports that come with a mark. -/
def Mark.reports : Mark → List Report
  | .translated _ _ _ rs => rs
  | .station k => k.reports
  | _ => []

theorem reports_station (marks : List Station.Mark) :
    (marks.map Mark.station).flatMap Mark.reports = marks.flatMap Station.Mark.reports := by
  rw [List.flatMap_map]
  rfl

/-- What is seen of a relay after these reports. -/
def shown (s : Relay) (settings : Settings) (reports : List (Nat × Report)) : Shown :=
  ⟨settings, s.queue, s.station.queue, s.cache, s.station.hardStop, s.station.now, reports⟩

/-- **Agrees**: a pipeline and a relay show the same. -/
def Agrees (p : Pipeline) (s : Relay) : Prop :=
  p.shown = s.shown p.settings p.reports

/-- **Follows**: by legal moves a relay goes along with what a task of a pipeline does at one moment, and
leaves marks of all that the task reports. -/
def Follows (p p' : Pipeline) (s s' : Relay) : Prop :=
  ∃ ms, (machine p.settings).legal s ms = true ∧ (machine p.settings).run s ms = s' ∧
    p'.shown = s'.shown p.settings
      (p.reports ++ p.stamped ((history p.settings s ms).flatMap Mark.reports)) ∧
    p'.clock.now = p.clock.now

namespace Follows

variable {p p' p'' : Pipeline} {s s' s'' : Relay} {m : Move}

theorem settings (h : Follows p p' s s') : p'.settings = p.settings := by
  obtain ⟨ms, -, -, hshown, -⟩ := h
  exact congrArg Shown.settings hshown

/-- Both agree in the end. -/
theorem agrees (h : Follows p p' s s') : Agrees p' s' := by
  obtain ⟨ms, -, -, hshown, -⟩ := h
  have hsettings : p'.settings = p.settings := congrArg Shown.settings hshown
  have hreports : p'.reports = p.reports ++ _ := congrArg Shown.reports hshown
  unfold Agrees
  rw [hshown, hreports, hsettings]

theorem refl (h : Agrees p s) : Follows p p s s := by
  refine ⟨[], rfl, rfl, ?_, rfl⟩
  rw [show history p.settings s [] = [] from rfl, List.flatMap_nil, Pipeline.stamped_nil, List.append_nil]
  exact h

/-- What shows as before is followed by no move. -/
theorem of_shown (h : Agrees p s) (hshown : p'.shown = p.shown) : Follows p p' s s := by
  obtain ⟨ms, hl, hrun, hs, -⟩ := refl h
  exact ⟨ms, hl, hrun, hshown.trans hs, congrArg Shown.now hshown⟩

/-- One piece of work after another. -/
theorem trans (h : Follows p p' s s') (h' : Follows p' p'' s' s'') : Follows p p'' s s'' := by
  have hsettings := h.settings
  obtain ⟨ms, hl, rfl, hshown, hnow⟩ := h
  have hreports : p'.reports = p.reports ++ _ := congrArg Shown.reports hshown
  obtain ⟨ms', hl', hrun', hshown', hnow'⟩ := h'
  rw [hsettings] at hl' hrun' hshown'
  refine ⟨ms ++ ms', ((machine p.settings).legal_append s ms ms').mpr ⟨hl, hl'⟩,
    ((machine p.settings).run_append s ms ms').trans hrun', ?_, hnow'.trans hnow⟩
  rw [hshown', hreports, List.append_assoc]
  unfold Pipeline.stamped history
  rw [hnow, (machine p.settings).log_append, List.flatMap_append, List.map_append]

/-- A single move that takes no time. -/
theorem single {marks : List Mark} (h : Agrees p s) (ha : allows p.settings s m = true)
    (hact : act p.settings s m = (s', marks))
    (hshown : p'.shown = s'.shown p.settings (p.reports ++ p.stamped (marks.flatMap Mark.reports)))
    (hnow : s'.station.now = s.station.now) : Follows p p' s s' := by
  have hnext : (machine p.settings).next s m = s' := congrArg Prod.fst hact
  refine ⟨[m], ((machine p.settings).legal_cons s m []).mpr ⟨ha, rfl⟩, hnext, ?_, ?_⟩
  · rw [history, Machine.log_cons, Machine.log_nil, List.append_nil, hact]
    exact hshown
  · exact (congrArg Shown.now hshown).trans (hnow.trans (congrArg Shown.now h).symm)

/-- A single move without marks. -/
theorem quiet (h : Agrees p s) (ha : allows p.settings s m = true) (hact : act p.settings s m = (s', []))
    (hshown : p'.shown = s'.shown p.settings p.reports) (hnow : s'.station.now = s.station.now) :
    Follows p p' s s' := by
  refine single h ha hact ?_ hnow
  rw [List.flatMap_nil, Pipeline.stamped_nil, List.append_nil]
  exact hshown

/-- A single move of the station that touches neither patience nor time. -/
theorem station {m : Station.Move} {t : Station} {marks : List Station.Mark} (h : Agrees p s)
    (ha : s.station.allows p.settings m = true) (hm : m ≠ .close)
    (hact : s.station.act p.settings m = (t, marks))
    (hshown : p'.shown =
      { p.shown with
        outbound := t.queue
        reports := p.reports ++ p.stamped (marks.flatMap Station.Mark.reports) })
    (hhard : t.hardStop = s.station.hardStop) (hnow : t.now = s.station.now) :
    Follows p p' s { s with station := t } := by
  have hclose : s.mayClose m = true := by
    cases m with
    | close => exact absurd rfl hm
    | _ => rfl
  have hrelay : act p.settings s (.station m) = ({ s with station := t }, marks.map .station) := by
    rw [act, hact]
  refine single (m := .station m) h (Bool.and_eq_true_iff.mpr ⟨ha, hclose⟩) hrelay ?_ hnow
  rw [hshown, h, reports_station]
  simp only [Relay.shown, hhard, hnow]

end Follows

/-! ## What may happen to an update at any moment -/

variable {p : Pipeline} {s : Relay}

/-- Both report the same about an update that the queue does not take. -/
theorem refusalReports_eq (h : Agrees p s) (delay : Duration) :
    s.station.refusalReports delay = p.refusalReports delay := by
  have hqueue : p.outbound.queue = s.station.queue := congrArg Shown.outbound h
  unfold Station.refusalReports Pipeline.refusalReports
  rw [hqueue]
  cases s.station.queue.admission delay <;> rfl

/-- Scheduling an update shows the same on both sides. -/
theorem shown_schedule (h : Agrees p s) (u : Update) :
    (p.schedule u).shown =
      { p.shown with
        outbound := (s.station.schedule p.settings u p.draws).1.queue
        reports := p.reports ++
          p.stamped ((s.station.schedule p.settings u p.draws).2.flatMap Station.Mark.reports) } := by
  have hqueue : p.outbound.queue = s.station.queue := congrArg Shown.outbound h
  -- the delay is kept as a whole: nothing is to be computed from its digits
  obtain ⟨delay, hp, hs⟩ : ∃ delay,
      p.schedule u =
        (if u.host = "" then p.note [Delivery.noHostReport u]
        else { p with draws := p.draws + 1 }.addUpdateAfter u delay) ∧
      s.station.schedule p.settings u p.draws =
        (if u.host = "" then (s.station, [.dropped u [Delivery.noHostReport u]])
        else (s.station.use (.addAfter u delay),
          if s.station.queue.closed then [.turnedAway u (s.station.refusalReports delay)]
          else [.accepted u])) :=
    ⟨_, rfl, rfl⟩
  rw [hp, hs]
  by_cases hhost : u.host = ""
  · rw [if_pos hhost, if_pos hhost, ← hqueue]
    rfl
  · rw [if_neg hhost, if_neg hhost, Pipeline.shown_addUpdateAfter, Station.reports_taken rfl rfl,
      refusalReports_eq h, hqueue]
    rfl

/-- An update is scheduled. -/
theorem follows_schedule (h : Agrees p s) (u : Update) :
    Follows p (p.schedule u) s
      { s with station := (s.station.schedule p.settings u p.draws).1 } := by
  obtain ⟨hhard, hnow⟩ := s.station.schedule_keeps p.settings u p.draws
  exact .station (m := .schedule u p.draws) h rfl (by simp) rfl (shown_schedule h u) hhard hnow

end Relay

end BorderSync
