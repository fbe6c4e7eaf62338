/-
# BorderSync.Proofs.Relay.Basic -- changes on their way to border servers

A **relay** is both sides of the pipeline at once. Consumers take changes from the inbound queue, translate
them and schedule the copies of what the translation yields, one after the other; the station carries the
copies out. Both runs are told to stop, the one that takes changes in first: the station only after the
other run has ended.

What the watch does to the cache, and what others do to the two queues, comes in between at any moment.
Equal changes may stand for one another: the moves of a consumer may name any change that is equal to the
one in its hand, so that nothing depends on which of several equal bodies the queue has kept.
-/
import BorderSync.Pipeline.Basic
import BorderSync.Proofs.Delivery.Outbound
import BorderSync.Proofs.Station.Concluded
import BorderSync.Proofs.Station.Return

namespace BorderSync

open Event

/-- **Planning**: how far a consumer is with the change that it has in hand. -/
inductive Planning where
  | fresh
  /-- The change is translated, and these copies are to be scheduled. -/
  | sending (copies : List Update)
  | settled

/-- **Relay**: consumers with their queue, the cache, and the station behind them. -/
structure Relay where
  shift : Shift Change Planning
  cache : Cluster.Cache
  station : Station

namespace Relay

/-- **Move** of a relay. -/
inductive Move where
  /-- Something is done to the inbound queue by a producer or a timer. -/
  | use (m : WorkQueue.Move Change)
  /-- The watch changes the cache. -/
  | watch (cache : Cluster.Cache)
  | ask
  /-- A consumer translates its change. -/
  | plan (c : Change) (tokens : Nat → Nat → String)
  /-- A consumer schedules the next copy; the number picks its delay. -/
  | send (c : Change) (r : Nat)
  | forget (c : Change)
  | done (c : Change)
  /-- The run is told to stop. -/
  | close
  | drained
  | join
  | station (m : Station.Move)

/-- **Mark** of a move. -/
inductive Mark where
  /-- The inbound queue has accepted a change, for now or for later. -/
  | accepted (c : Change)
  | turnedAway (c : Change)
  /-- A translation has yielded these updates. -/
  | translated (c : Change) (updates : List Update) (tokens : Nat → Nat → String)
    (reports : List Report)
  | returned
  | station (k : Station.Mark)

/-- Number of consumers. -/
def consumers (settings : Settings) : Nat :=
  Nat.max settings.inbound.threads 1

/-- Both runs have just begun. -/
def start (settings : Settings) (cache : Cluster.Cache) : Relay :=
  let q := settings.inbound.queue
  { shift := .start q.name q.base q.max (consumers settings)
    cache := cache
    station := .start settings }

/-- The inbound queue. -/
abbrev queue (s : Relay) : WorkQueue Change :=
  s.shift.queue

/-- How far the change in a consumer's hand is. -/
abbrev stage? (s : Relay) (c : Change) : Option Planning :=
  s.shift.desks.get? c

/-! ## What moves do -/

/-- The marks of what is done to the inbound queue. -/
def useMarks (s : Relay) (m : WorkQueue.Move Change) : List Mark :=
  match Shift.brings? m with
  | some c => if s.queue.closed then [.turnedAway c] else [.accepted c]
  | none => []

/-- A change is translated, and its copies are made. -/
def plan (settings : Settings) (s : Relay) (c : Change) (tokens : Nat → Nat → String) :
    Relay × List Mark :=
  match Plan.ofChange s.cache c with
  | .ok r =>
    ({ s with
        cache := r.cache
        shift := s.shift.turn c (.sending (Delivery.copies settings.hosts r.updates tokens)) },
      [.translated c r.updates tokens (r.reports ++
        if settings.hosts.isEmpty then [Delivery.noHostsReport r.updates] else [])])
  | .error e =>
    ({ s with shift := s.shift.turn c (.sending []) },
      [.translated c [] tokens [Pipeline.planlessReport c e]])

/-- The next copy is scheduled. -/
def send (settings : Settings) (s : Relay) (c : Change) (r : Nat) : Relay × List Mark :=
  match s.stage? c with
  | some (.sending (w :: rest)) =>
    ({ s with
        shift := s.shift.turn c (.sending rest)
        station := (s.station.schedule settings w r).1 },
      (s.station.schedule settings w r).2.map .station)
  | _ => (s, [])

/-- **What a move does**, and the marks that it leaves. -/
def act (settings : Settings) (s : Relay) : Move → Relay × List Mark
  | .use m => ({ s with shift := s.shift.use m }, s.useMarks m)
  | .watch cache => ({ s with cache := cache }, [])
  | .ask => ({ s with shift := s.shift.ask .fresh }, [])
  | .plan c tokens => s.plan settings c tokens
  | .send c r => s.send settings c r
  | .forget c => ({ s with shift := (s.shift.use (.forget c)).turn c .settled }, [])
  | .done c => ({ s with shift := s.shift.done c }, [])
  | .close => ({ s with shift := s.shift.close }, [])
  | .drained => ({ s with shift := s.shift.drained }, [])
  | .join => ({ s with shift := s.shift.join }, [.returned])
  | .station m =>
    ({ s with station := (s.station.act settings m).1 }, (s.station.act settings m).2.map .station)

/-- The station is told to stop only after the run in front of it has ended. -/
def mayClose (s : Relay) : Station.Move → Bool
  | .close => s.shift.phase = .ended
  | _ => true

/-- What is due may be done; what others do may come at any moment. -/
def allows (settings : Settings) (s : Relay) : Move → Bool
  | .use m => Shift.isUse m && s.shift.crew.floor.allows m
  | .watch _ => true
  | .ask => 0 < s.shift.crew.free
  | .plan c _ =>
    match s.stage? c with
    | some .fresh => true
    | _ => false
  | .send c _ =>
    match s.stage? c with
    | some (.sending (_ :: _)) => true
    | _ => false
  | .forget c =>
    match s.stage? c with
    | some (.sending []) => true
    | _ => false
  | .done c =>
    match s.stage? c with
    | some .settled => true
    | _ => false
  | .close => s.shift.phase = .running
  | .drained => s.shift.phase = .draining ∧ s.queue.isIdle = true
  | .join => s.shift.phase = .joining ∧ s.shift.crew.gone = consumers settings
  | .station m => s.station.allows settings m && s.mayClose m

/-- **The machine of a relay**: its legal runs are all interleavings of producers, timers, the watch,
consumers, workers and both runs. -/
def machine (settings : Settings) : Machine Relay Move where
  allows := allows settings
  next s m := (act settings s m).1

/-- The marks of a run. -/
def history (settings : Settings) (s : Relay) (ms : List Move) : List Mark :=
  (machine settings).log (fun s m => (act settings s m).2) s ms

/-! ## Steps -/

variable {settings : Settings} {s t : Relay} {m : Move} {marks : List Mark}

/-- **Step**: a move, the state it leads to and the marks it leaves. -/
inductive Step (settings : Settings) (s : Relay) : Move → Relay → List Mark → Prop
  | use (m : WorkQueue.Move Change) (hm : Shift.isUse m = true)
    (ha : s.shift.crew.floor.allows m = true) :
    Step settings s (.use m) { s with shift := s.shift.use m } (s.useMarks m)
  | watch (cache : Cluster.Cache) : Step settings s (.watch cache) { s with cache := cache } []
  | ask (hfree : 0 < s.shift.crew.free) :
    Step settings s .ask { s with shift := s.shift.ask .fresh } []
  | plan (c : Change) (cache : Cluster.Cache) (updates : List Update) (tokens : Nat → Nat → String)
    (reports : List Report) (hstage : s.stage? c = some .fresh)
    (hplan : updates = Outbound.planned s.cache c) :
    Step settings s (.plan c tokens)
      { s with
        cache := cache
        shift := s.shift.turn c (.sending (Delivery.copies settings.hosts updates tokens)) }
      [.translated c updates tokens reports]
  | send (c : Change) (r : Nat) (w : Update) (rest : List Update) (t : Station)
    (marks : List Station.Mark) (hstage : s.stage? c = some (.sending (w :: rest)))
    (hstep : s.station.Step settings (.schedule w r) t marks) :
    Step settings s (.send c r)
      { s with shift := s.shift.turn c (.sending rest), station := t } (marks.map .station)
  | forget (c : Change) (hstage : s.stage? c = some (.sending [])) :
    Step settings s (.forget c) { s with shift := (s.shift.use (.forget c)).turn c .settled } []
  | done (c : Change) (hstage : s.stage? c = some .settled) :
    Step settings s (.done c) { s with shift := s.shift.done c } []
  | close (hphase : s.shift.phase = .running) :
    Step settings s .close { s with shift := s.shift.close } []
  | drained (hphase : s.shift.phase = .draining) (hidle : s.queue.isIdle = true) :
    Step settings s .drained { s with shift := s.shift.drained } []
  | join (hphase : s.shift.phase = .joining) (hgone : s.shift.crew.gone = consumers settings) :
    Step settings s .join { s with shift := s.shift.join } [.returned]
  | station (m : Station.Move) (t : Station) (marks : List Station.Mark)
    (hstep : s.station.Step settings m t marks) (hclose : m = .close → s.shift.phase = .ended) :
    Step settings s (.station m) { s with station := t } (marks.map .station)

theorem step_plan {c : Change} {tokens : Nat → Nat → String}
    (ha : allows settings s (.plan c tokens) = true) :
    Step settings s (.plan c tokens) (s.plan settings c tokens).1 (s.plan settings c tokens).2 := by
  have hstage : s.stage? c = some .fresh := by
    simp only [allows] at ha
    split at ha
    · assumption
    · exact absurd ha (by simp)
  unfold plan
  cases hplan : Plan.ofChange s.cache c with
  | ok r => exact .plan c r.cache r.updates tokens _ hstage (by simp [Outbound.planned, hplan])
  | error e =>
    -- no update, no copy
    have hcopies : Delivery.copies settings.hosts [] tokens = [] := by
      simp [Delivery.copies, Delivery.indexed]
    have hstep : Step settings s (.plan c tokens) _ _ :=
      .plan c s.cache [] tokens [Pipeline.planlessReport c e] hstage (by simp [Outbound.planned, hplan])
    rw [hcopies] at hstep
    exact hstep

theorem step_send {c : Change} {r : Nat} (ha : allows settings s (.send c r) = true) :
    Step settings s (.send c r) (s.send settings c r).1 (s.send settings c r).2 := by
  simp only [allows] at ha
  unfold send
  split at ha
  · rename_i w rest hstage
    exact .send c r w rest _ _ hstage (Station.step_schedule settings s.station w r)
  · exact absurd ha (by simp)

theorem step_forget {c : Change} (ha : allows settings s (.forget c) = true) :
    Step settings s (.forget c) { s with shift := (s.shift.use (.forget c)).turn c .settled } [] := by
  simp only [allows] at ha
  split at ha
  · rename_i hstage
    exact .forget c hstage
  · exact absurd ha (by simp)

theorem step_done {c : Change} (ha : allows settings s (.done c) = true) :
    Step settings s (.done c) { s with shift := s.shift.done c } [] := by
  simp only [allows] at ha
  split at ha
  · rename_i hstage
    exact .done c hstage
  · exact absurd ha (by simp)

/-- **Every allowed move is a step.** -/
theorem step_of_allows (ha : allows settings s m = true) :
    Step settings s m (act settings s m).1 (act settings s m).2 := by
  cases m with
  | use m =>
    obtain ⟨hm, ha⟩ := Bool.and_eq_true_iff.mp ha
    exact .use m hm ha
  | watch cache => exact .watch cache
  | ask => exact .ask (of_decide_eq_true ha)
  | plan c tokens => exact step_plan ha
  | send c r => exact step_send ha
  | forget c => exact step_forget ha
  | done c => exact step_done ha
  | close => exact .close (of_decide_eq_true ha)
  | drained =>
    obtain ⟨hphase, hidle⟩ := of_decide_eq_true ha
    exact .drained hphase hidle
  | join =>
    obtain ⟨hphase, hgone⟩ := of_decide_eq_true ha
    exact .join hphase hgone
  | station m =>
    obtain ⟨ha, hclose⟩ := Bool.and_eq_true_iff.mp ha
    refine .station m _ _ (Station.step_of_allows ha) ?_
    rintro rfl
    exact of_decide_eq_true hclose

/-! ## What every step keeps -/

/-- **Sound**: both sides are in order, and the station runs at least until the other run has ended. -/
structure Sound (settings : Settings) (s : Relay) : Prop where
  shift : s.shift.Sound (consumers settings)
  station : s.station.Sound settings
  gate : s.shift.phase ≠ .ended → s.station.shift.phase = .running

namespace Sound

theorem start (settings : Settings) (cache : Cluster.Cache) :
    (Relay.start settings cache).Sound settings :=
  ⟨.start _ _ _ _, .start settings, fun _ => rfl⟩

/-- **Every step keeps a relay sound.** -/
theorem step (h : s.Sound settings) (hstep : Step settings s m t marks) : t.Sound settings := by
  cases hstep with
  | use m hm ha => exact ⟨h.shift.use hm ha, h.station, h.gate⟩
  | watch cache => exact ⟨h.shift, h.station, h.gate⟩
  | ask hfree => exact ⟨h.shift.ask hfree .fresh, h.station, h.gate⟩
  | plan c cache updates tokens reports hstage hplan =>
    exact ⟨h.shift.turn hstage _, h.station, h.gate⟩
  | send c r w rest t marks hstage hstep =>
    exact ⟨h.shift.turn hstage _, h.station.step hstep,
      fun hphase => Station.running_of_step hstep (by simp) (h.gate hphase)⟩
  | forget c hstage =>
    exact ⟨(h.shift.use (m := .forget c) rfl rfl).turn hstage _, h.station, h.gate⟩
  | done c hstage => exact ⟨h.shift.done hstage, h.station, h.gate⟩
  | close hphase => exact ⟨h.shift.close, h.station, fun _ => h.gate (by simp [hphase])⟩
  | drained hphase hidle =>
    exact ⟨h.shift.drained hphase hidle, h.station, fun _ => h.gate (by simp [hphase])⟩
  | join hphase hgone => exact ⟨h.shift.join hphase hgone, h.station, fun h => absurd rfl h⟩
  | station m t marks hstep hclose =>
    exact ⟨h.shift, h.station.step hstep, fun hphase =>
      Station.running_of_step hstep (fun hm => hphase (hclose hm)) (h.gate hphase)⟩

/-- Every allowed move keeps a relay sound. -/
theorem next (h : s.Sound settings) (m : Move) (ha : allows settings s m = true) :
    ((machine settings).next s m).Sound settings :=
  h.step (step_of_allows ha)

/-- Every legal run keeps a relay sound. -/
theorem run (h : s.Sound settings) {ms : List Move} (hl : (machine settings).legal s ms = true) :
    ((machine settings).run s ms).Sound settings :=
  (machine settings).run_keeps (P := Sound settings) (fun _ m hs ha => hs.next m ha) h hl

end Sound

end Relay

end BorderSync
