/-
# BorderSync.Proofs.Station.Steps -- what an allowed move of a station does

Every allowed move makes one of the steps below. A step says what it found, what it leaves and which marks
it makes, so that nothing after this has to look into the moves again. What each step keeps of a station is
told once here.
-/
import BorderSync.Proofs.Queue.Backoff
import BorderSync.Proofs.Station.Basic

namespace BorderSync.Station

open Border Event

variable {settings : Settings} {s t : Station} {m : Move} {marks : List Mark}

/-- **Step**: a move, the state it leads to and the marks it leaves. -/
inductive Step (settings : Settings) (s : Station) : Move → Station → List Mark → Prop
  | pass (millis : Nat) : Step settings s (.pass millis) { s with now := s.now + millis } []
  | drop (u : Update) (r : Nat) (hhost : u.host = "") :
    Step settings s (.schedule u r) s [.dropped u [Delivery.noHostReport u]]
  | accept (u : Update) (r : Nat) (delay : Duration) (hhost : u.host ≠ "")
    (hopen : s.queue.closed = false) :
    Step settings s (.schedule u r) (s.use (.addAfter u delay)) [.accepted u]
  | turnAway (u : Update) (r : Nat) (reports : List Report) (hhost : u.host ≠ "")
    (hclosed : s.queue.closed = true) : Step settings s (.schedule u r) s [.turnedAway u reports]
  | land (u : Update) (hcoming : s.shift.crew.floor.coming.contains u = true) :
    Step settings s (.land u) (s.use (.land u)) []
  | take (u : Update) (later : List Update) (hwaiting : s.queue.waiting = u :: later)
    (hfree : 0 < s.shift.crew.free) :
    Step settings s .ask { s with shift := s.shift.ask .fresh } []
  /-- A worker finds nothing, and leaves or asks again later. -/
  | rest (hwaiting : s.queue.waiting = []) (hfree : 0 < s.shift.crew.free) :
    Step settings s .ask { s with shift := s.shift.ask .fresh } []
  | begin (u : Update) (hstage : s.stage? u = some .fresh) (hgoing : s.hardStop = false) :
    Step settings s (.begin u) (s.turn u (.asking (dispatch u).2))
      (.dispatched u (dispatch u).1 :: requestMarks u (dispatch u).2)
  | answer (u : Update) (a : Answer) (q : Request) (next : Answer → Call Outcome)
    (hstage : s.stage? u = some (.asking (.ask q next))) (hgoing : s.hardStop = false) :
    Step settings s (.answer u a) (s.turn u (.asking (next a))) (requestMarks u (next a))
  /-- An attempt is over for good. -/
  | finish (u : Update) (o : Outcome) (v : Delivery.Verdict)
    (hstage : s.stage? u = some (.asking (.done o)))
    (hv : Delivery.verdict settings.outbound.retryCount (s.queue.requeues u) o.result = v)
    (hfinal : ∀ n, v ≠ .again n) :
    Step settings s (.settle u) ((s.use (.forget u)).turn u .settled)
      [.judged u v (o.reports ++
        Delivery.attemptReports settings.outbound.retryCount (s.queue.requeues u) u o.result)]
  /-- An attempt has failed, and is to be repeated. -/
  | fail (u : Update) (o : Outcome) (hstage : s.stage? u = some (.asking (.done o)))
    (hbelow : s.queue.requeues u + 1 < settings.outbound.retryCount) (reports : List Report) :
    Step settings s (.settle u)
      ((s.use (.recordFailure u)).turn u (.again (s.queue.backoff.wait u)))
      [.judged u (.again (s.queue.requeues u + 1)) reports]
  | readd (u : Update) (wait : Duration) (hstage : s.stage? u = some (.again wait))
    (hopen : s.queue.closed = false) :
    Step settings s (.readd u) ((s.use (.addAfter u wait)).turn u .settled) [.readded u wait]
  | refuse (u : Update) (wait : Duration) (reports : List Report)
    (hstage : s.stage? u = some (.again wait)) (hclosed : s.queue.closed = true) :
    Step settings s (.readd u) (s.turn u .settled) [.refused u reports]
  | abandon (u : Update) (h : Handling) (hstage : s.stage? u = some h)
    (hundone : h = .fresh ∨ ∃ call, h = .asking call) (hstopped : s.hardStop = true) :
    Step settings s (.abandon u) ((s.use (.forget u)).turn u .settled)
      [.abandoned u s.now [Delivery.abandonReport u]]
  | done (u : Update) (hstage : s.stage? u = some .settled) :
    Step settings s (.done u) { s with shift := s.shift.done u } []
  | close (hphase : s.shift.phase = .running) :
    Step settings s .close { s with shift := s.shift.close, closedAt := s.now } [.closed s.now]
  | hurry (hphase : s.shift.phase = .draining) (hgoing : s.hardStop = false)
    (hgrace : s.graceEnd ≤ s.now) :
    Step settings s .hurry { s with hardStop := true } [.hurried s.now [Delivery.graceReport]]
  | drained (hphase : s.shift.phase = .draining) (hidle : s.queue.isIdle = true) :
    Step settings s .drained { s with shift := s.shift.drained } []
  | join (hphase : s.shift.phase = .joining) (hgone : s.shift.crew.gone = workers settings) :
    Step settings s .join { s with shift := s.shift.join } [.returned]

/-! ## Moves are steps -/

/-- A queue that is shut down does not take an update. -/
theorem use_addAfter_of_closed (hclosed : s.queue.closed = true) (u : Update) (delay : Duration) :
    s.use (.addAfter u delay) = s := by
  have hfloor : s.shift.crew.floor.next (.addAfter u delay) = s.shift.crew.floor :=
    WorkQueue.Crew.addAfter_of_closed hclosed u delay
  simp only [use, Shift.use, WorkQueue.Crew.next, hfloor]

theorem step_schedule (settings : Settings) (s : Station) (u : Update) (r : Nat) :
    Step settings s (.schedule u r) (s.schedule settings u r).1 (s.schedule settings u r).2 := by
  -- the delay is kept as a whole: nothing is to be computed from its digits
  obtain ⟨delay, hnext⟩ : ∃ delay, s.schedule settings u r =
      if u.host = "" then (s, [.dropped u [Delivery.noHostReport u]])
      else (s.use (.addAfter u delay),
        if s.queue.closed then [.turnedAway u (s.refusalReports delay)] else [.accepted u]) :=
    ⟨_, rfl⟩
  rw [hnext]
  by_cases hhost : u.host = ""
  · rw [if_pos hhost]
    exact .drop u r hhost
  · rw [if_neg hhost]
    by_cases hclosed : s.queue.closed = true
    · rw [use_addAfter_of_closed hclosed, if_pos hclosed]
      exact .turnAway u r _ hhost hclosed
    · rw [if_neg hclosed]
      exact .accept u r delay hhost (Bool.eq_false_iff.mpr hclosed)

theorem step_ask (hfree : 0 < s.shift.crew.free) :
    Step settings s .ask { s with shift := s.shift.ask .fresh } [] := by
  cases hw : s.queue.waiting with
  | nil => exact .rest hw hfree
  | cons u later => exact .take u later hw hfree

theorem step_begin {u : Update} (ha : allows settings s (.begin u) = true) :
    Step settings s (.begin u) (s.begin u).1 (s.begin u).2 := by
  simp only [allows] at ha
  split at ha
  · rename_i hstage
    exact .begin u hstage (by simpa using ha)
  · exact absurd ha (by simp)

theorem step_answer {u : Update} {a : Answer} (ha : allows settings s (.answer u a) = true) :
    Step settings s (.answer u a) (s.answer u a).1 (s.answer u a).2 := by
  simp only [allows] at ha
  unfold answer
  split at ha
  · rename_i q next hstage
    exact .answer u a q next hstage (by simpa using ha)
  · exact absurd ha (by simp)

theorem step_settle {u : Update} (ha : allows settings s (.settle u) = true) :
    Step settings s (.settle u) (s.settle settings u).1 (s.settle settings u).2 := by
  simp only [allows] at ha
  unfold settle
  split at ha
  · rename_i o hstage
    cases hv : Delivery.verdict settings.outbound.retryCount (s.queue.requeues u) o.result with
    | applied =>
      simp only [hv]
      exact .finish u o .applied hstage hv (by simp)
    | givenUp n =>
      simp only [hv]
      exact .finish u o (.givenUp n) hstage hv (by simp)
    | again n =>
      obtain ⟨hbelow, rfl⟩ : s.queue.requeues u + 1 < settings.outbound.retryCount ∧
          s.queue.requeues u + 1 = n := by
        unfold Delivery.verdict at hv
        split at hv
        · exact absurd hv (by simp)
        · split at hv
          · rename_i hbelow
            exact ⟨hbelow, by simpa using hv⟩
          · exact absurd hv (by simp)
      simp only [hv]
      exact .fail u o hstage hbelow _
  · exact absurd ha (by simp)

theorem step_readd {u : Update} (ha : allows settings s (.readd u) = true) :
    Step settings s (.readd u) (s.readd u).1 (s.readd u).2 := by
  simp only [allows] at ha
  unfold readd
  split at ha
  · rename_i wait hstage
    by_cases hclosed : s.queue.closed = true
    · simp only [use_addAfter_of_closed hclosed, if_pos hclosed]
      exact .refuse u wait _ hstage hclosed
    · simp only [if_neg hclosed]
      exact .readd u wait hstage (Bool.eq_false_iff.mpr hclosed)
  · exact absurd ha (by simp)

theorem step_abandon {u : Update} (ha : allows settings s (.abandon u) = true) :
    Step settings s (.abandon u) (s.abandon u).1 (s.abandon u).2 := by
  simp only [allows] at ha
  split at ha
  · rename_i hstage
    exact .abandon u .fresh hstage (.inl rfl) ha
  · rename_i q next hstage
    exact .abandon u _ hstage (.inr ⟨_, rfl⟩) ha
  · exact absurd ha (by simp)

theorem step_done {u : Update} (ha : allows settings s (.done u) = true) :
    Step settings s (.done u) { s with shift := s.shift.done u } [] := by
  simp only [allows] at ha
  split at ha
  · rename_i hstage
    exact .done u hstage
  · exact absurd ha (by simp)

/-- **Every allowed move is a step.** -/
theorem step_of_allows (ha : allows settings s m = true) :
    Step settings s m (act settings s m).1 (act settings s m).2 := by
  cases m with
  | pass millis => exact .pass millis
  | schedule u r => exact step_schedule settings s u r
  | land u => exact .land u ha
  | ask => exact step_ask (of_decide_eq_true ha)
  | begin u => exact step_begin ha
  | answer u a => exact step_answer ha
  | settle u => exact step_settle ha
  | readd u => exact step_readd ha
  | abandon u => exact step_abandon ha
  | done u => exact step_done ha
  | close => exact .close (of_decide_eq_true ha)
  | hurry =>
    obtain ⟨hphase, hgoing, hgrace⟩ := of_decide_eq_true ha
    exact .hurry hphase hgoing hgrace
  | drained =>
    obtain ⟨hphase, hidle⟩ := of_decide_eq_true ha
    exact .drained hphase hidle
  | join =>
    obtain ⟨hphase, hgone⟩ := of_decide_eq_true ha
    exact .join hphase hgone

/-! ## What every step keeps -/

/-- **Sound**: the shift is in order, the bounds of the wait are those of the settings, and patience runs
out only when it is due. -/
structure Sound (settings : Settings) (s : Station) : Prop where
  shift : s.shift.Sound (workers settings)
  base : s.queue.backoff.base = settings.outbound.queue.base
  max : s.queue.backoff.max = settings.outbound.queue.max
  stopped : s.hardStop = true → s.queue.closed = true ∧ s.graceEnd ≤ s.now

/-- The backoff of a station stays as it is when a worker asks. -/
theorem backoff_ask (s : Station) : (s.shift.ask .fresh).queue.backoff = s.queue.backoff := by
  show s.shift.crew.ask.floor.queue.backoff = _
  rw [s.shift.crew.floor_ask]
  exact WorkQueue.backoff_take s.queue

/-- A queue that is shut down stays so when a worker asks. -/
theorem closed_ask (hclosed : s.queue.closed = true) : (s.shift.ask .fresh).queue.closed = true := by
  show s.shift.crew.ask.floor.queue.closed = true
  rw [s.shift.crew.floor_ask]
  exact WorkQueue.Crew.closed_next hclosed .take

namespace Sound

theorem start (settings : Settings) : (Station.start settings).Sound settings :=
  ⟨.start _ _ _ _, rfl, rfl, fun h => absurd h Bool.false_ne_true⟩

theorem use (h : s.Sound settings) {m : WorkQueue.Move Update} (hm : Shift.isUse m = true)
    (ha : s.shift.crew.floor.allows m = true) : (s.use m).Sound settings := by
  obtain ⟨hbase, hmax⟩ := WorkQueue.backoff_next s.shift.crew.floor m
  exact ⟨h.shift.use hm ha, hbase.trans h.base, hmax.trans h.max,
    fun hstop => ⟨WorkQueue.Crew.closed_next (h.stopped hstop).1 m, (h.stopped hstop).2⟩⟩

theorem turn (h : s.Sound settings) {u : Update} {old : Handling} (hstage : s.stage? u = some old)
    (new : Handling) : (s.turn u new).Sound settings :=
  ⟨h.shift.turn hstage new, h.base, h.max, h.stopped⟩

theorem ask (h : s.Sound settings) (hfree : 0 < s.shift.crew.free) :
    ({ s with shift := s.shift.ask .fresh } : Station).Sound settings where
  shift := h.shift.ask hfree .fresh
  base := (congrArg Backoff.base s.backoff_ask).trans h.base
  max := (congrArg Backoff.max s.backoff_ask).trans h.max
  stopped hstop := ⟨closed_ask (h.stopped hstop).1, (h.stopped hstop).2⟩

/-- **Every step keeps a station sound.** -/
theorem step (h : s.Sound settings) (hstep : Step settings s m t marks) : t.Sound settings := by
  cases hstep with
  | pass millis =>
    refine ⟨h.shift, h.base, h.max, fun hstop => ⟨(h.stopped hstop).1, ?_⟩⟩
    exact Nat.le_trans (h.stopped hstop).2 (Nat.le_add_right _ _)
  | drop u r hhost => exact h
  | accept u r delay hhost hopen => exact h.use rfl rfl
  | turnAway u r reports hhost hclosed => exact h
  | land u hcoming => exact h.use rfl hcoming
  | take u later hwaiting hfree => exact h.ask hfree
  | rest hwaiting hfree => exact h.ask hfree
  | begin u hstage hgoing => exact h.turn hstage _
  | answer u a q next hstage hgoing => exact h.turn hstage _
  | finish u o v hstage hv hfinal => exact (h.use (m := .forget u) rfl rfl).turn hstage _
  | fail u o hstage hbelow reports => exact (h.use (m := .recordFailure u) rfl rfl).turn hstage _
  | readd u wait hstage hopen => exact (h.use (m := .addAfter u wait) rfl rfl).turn hstage _
  | refuse u wait reports hstage hclosed => exact h.turn hstage _
  | abandon u handling hstage hundone hstopped =>
    exact (h.use (m := .forget u) rfl rfl).turn hstage _
  | done u hstage => exact ⟨h.shift.done hstage, h.base, h.max, h.stopped⟩
  | close hphase =>
    -- while the run is not told to stop, patience does not run out
    refine ⟨h.shift.close, h.base, h.max, fun hstop => ?_⟩
    exact absurd (h.stopped hstop).1 (by simp [h.shift.isOpen hphase])
  | hurry hphase hgoing hgrace =>
    exact ⟨h.shift, h.base, h.max, fun _ => ⟨h.shift.closed_iff.mpr (by simp [hphase]), hgrace⟩⟩
  | drained hphase hidle => exact ⟨h.shift.drained hphase hidle, h.base, h.max, h.stopped⟩
  | join hphase hgone => exact ⟨h.shift.join hphase hgone, h.base, h.max, h.stopped⟩

/-- Every allowed move keeps a station sound. -/
theorem next (h : s.Sound settings) (m : Move) (ha : allows settings s m = true) :
    ((machine settings).next s m).Sound settings :=
  h.step (step_of_allows ha)

/-- Every legal run keeps a station sound. -/
theorem run (h : s.Sound settings) {ms : List Move} (hl : (machine settings).legal s ms = true) :
    ((machine settings).run s ms).Sound settings :=
  (machine settings).run_keeps (P := Sound settings) (fun _ m hs ha => hs.next m ha) h hl

end Sound

/-- **What every step keeps of a station and its history, every run keeps.** -/
theorem history_keeps {P : Station → List Mark → Prop}
    (step : ∀ s l m t marks, s.Sound settings → P s l → Step settings s m t marks → P t (l ++ marks))
    (hstart : P (start settings) []) {ms : List Move}
    (hl : (machine settings).legal (start settings) ms = true) :
    P ((machine settings).run (start settings) ms) (history settings (start settings) ms) := by
  have hkept : ((machine settings).run (start settings) ms).Sound settings ∧
      P ((machine settings).run (start settings) ms)
        ([] ++ (machine settings).log (fun s m => (act settings s m).2) (start settings) ms) :=
    (machine settings).log_keeps (P := fun s l => s.Sound settings ∧ P s l)
      (fun s l m hs ha => ⟨hs.1.next m ha, step s l m _ _ hs.1 hs.2 (step_of_allows ha)⟩)
      ⟨.start settings, hstart⟩ hl
  exact hkept.2

end BorderSync.Station
