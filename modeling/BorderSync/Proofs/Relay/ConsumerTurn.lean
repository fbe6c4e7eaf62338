/-
# BorderSync.Proofs.Relay.ConsumerTurn -- the turn of a consumer

A consumer goes on until the inbound queue has nothing for it. For each change it makes one move to
translate it, one for each copy, and two to put the change away.
-/
import BorderSync.Proofs.Relay.Agreement

namespace BorderSync

open Event

namespace Pipeline

/-- The tokens are drawn, or it is reported that there is nobody to be addressed. -/
def beforeCopies (p : Pipeline) (us : List Update) : Pipeline :=
  if p.settings.hosts.isEmpty then p.note [Delivery.noHostsReport us]
  else { p with draws := p.draws + p.settings.hosts.length * us.length }

/-- What a fan-out reports by itself. -/
def fanOutReports (settings : Settings) (us : List Update) : List Report :=
  if settings.hosts.isEmpty then [Delivery.noHostsReport us] else []

/-- Without hosts there are no copies: in each case the copies that there are get scheduled. -/
theorem fanOut_eq (p : Pipeline) (us : List Update) :
    p.fanOut us =
      (Delivery.copies p.settings.hosts us (Delivery.consecutiveTokens p.draws us.length)).foldl
        schedule (p.beforeCopies us) := by
  unfold fanOut beforeCopies
  cases p.settings.hosts with
  | nil => rfl
  | cons host hosts => rfl

theorem shown_beforeCopies (p : Pipeline) (us : List Update) :
    (p.beforeCopies us).shown =
      { p.shown with reports := p.reports ++ p.stamped (fanOutReports p.settings us) } := by
  unfold beforeCopies fanOutReports
  split
  · rfl
  · rw [stamped_nil, List.append_nil]
    rfl

end Pipeline

namespace Relay

variable {p : Pipeline} {s : Relay} {c : Change}

/-! ## A change in hand -/

/-- A consumer asks. -/
theorem follows_ask (h : Agrees p s) (hfree : 0 < s.shift.crew.free) (t : TaskId) :
    Follows p (p.withInbound ((p.inbound.consult t).1, (p.inbound.consult t).2.2)) s
      { s with shift := s.shift.ask .fresh } := by
  have hqueue : p.inbound.queue = s.queue := congrArg Shown.inbound h
  refine .quiet (m := .ask) h (decide_eq_true hfree) rfl ?_ rfl
  rw [Pipeline.shown_withInbound, SharedQueue.queue_consult, hqueue, h,
    ← s.shift.queue_ask .fresh]
  rfl

/-- A consumer schedules the next copy. -/
theorem follows_send {w : Update} {rest : List Update} (h : Agrees p s)
    (hstage : s.stage? c = some (.sending (w :: rest))) :
    Follows p (p.schedule w) s
      { s with
        shift := s.shift.turn c (.sending rest)
        station := (s.station.schedule p.settings w p.draws).1 } := by
  obtain ⟨hhard, hnow⟩ := s.station.schedule_keeps p.settings w p.draws
  have ha : allows p.settings s (.send c p.draws) = true := by rw [allows, hstage]
  have hact : act p.settings s (.send c p.draws) =
      ({ s with
          shift := s.shift.turn c (.sending rest)
          station := (s.station.schedule p.settings w p.draws).1 },
        (s.station.schedule p.settings w p.draws).2.map .station) := by
    rw [act, send, hstage]
  refine .single h ha hact ?_ hnow
  rw [shown_schedule h, reports_station, h]
  simp only [Relay.shown, hhard, hnow]
  rfl

/-- A consumer schedules the copies that it has left. -/
theorem follows_sends (ws : List Update) (h : Agrees p s) (hstage : s.stage? c = some (.sending ws)) :
    ∃ s', Follows p (ws.foldl Pipeline.schedule p) s s' ∧ s'.stage? c = some (.sending []) := by
  induction ws generalizing p s with
  | nil => exact ⟨s, .refl h, hstage⟩
  | cons w ws ih =>
    have hsend := follows_send h hstage
    obtain ⟨s', hrest, hstage'⟩ := ih hsend.agrees (s.shift.stage_self c (.sending ws))
    exact ⟨s', hsend.trans hrest, hstage'⟩

/-- A consumer translates its change, or finds that there is no plan for it. What is left of its handling
are the copies to be scheduled and the failures to be forgotten. -/
theorem follows_plan (h : Agrees p s) (hstage : s.stage? c = some .fresh) :
    ∃ (ws : List Update) (p₁ : Pipeline) (s₁ : Relay), Follows p p₁ s s₁ ∧
      s₁.stage? c = some (.sending ws) ∧
      p.handleChange c =
        { ws.foldl Pipeline.schedule p₁ with
          inbound := (ws.foldl Pipeline.schedule p₁).inbound.forget c } := by
  have hcache : p.cache = s.cache := congrArg Shown.cache h
  have ha : ∀ tokens, allows p.settings s (.plan c tokens) = true := fun tokens => by
    rw [allows, hstage]
  cases hplan : Plan.ofChange p.cache c with
  | ok r =>
    let p₀ := { p with cache := r.cache }.note r.reports
    let tokens := Delivery.consecutiveTokens p.draws r.updates.length
    let ws := Delivery.copies p.settings.hosts r.updates tokens
    have hact : act p.settings s (.plan c tokens) =
        ({ s with cache := r.cache, shift := s.shift.turn c (.sending ws) },
          [.translated c r.updates tokens
            (r.reports ++ Pipeline.fanOutReports p.settings r.updates)]) := by
      rw [act, plan, ← hcache, hplan]
      rfl
    refine ⟨ws, p₀.beforeCopies r.updates, _, .single h (ha tokens) hact ?_ rfl,
      s.shift.stage_self c (.sending ws), ?_⟩
    · have hreports : p₀.reports ++ p₀.stamped (Pipeline.fanOutReports p₀.settings r.updates) =
          p.reports ++ p.stamped (r.reports ++ Pipeline.fanOutReports p.settings r.updates) := by
        rw [Pipeline.stamped_append, ← List.append_assoc]
        rfl
      rw [Pipeline.shown_beforeCopies, hreports, List.flatMap_singleton]
      exact congrArg (fun v : Shown => { v with
        cache := r.cache
        reports := p.reports ++
          p.stamped (r.reports ++ Pipeline.fanOutReports p.settings r.updates) }) h
    · rw [Pipeline.handleChange, hplan]
      dsimp only
      rw [Pipeline.fanOut_eq]
      rfl
  | error e =>
    have hact : act p.settings s (.plan c fun _ _ => "") =
        ({ s with shift := s.shift.turn c (.sending []) },
          [.translated c [] (fun _ _ => "") [Pipeline.planlessReport c e]]) := by
      rw [act, plan, ← hcache, hplan]
    refine ⟨[], p.note [Pipeline.planlessReport c e], _, .single h (ha _) hact ?_ rfl,
      s.shift.stage_self _ _, ?_⟩
    · rw [Pipeline.shown_note, h]
      rfl
    · rw [Pipeline.handleChange, hplan]
      rfl

/-- A consumer forgets the failures of its change. -/
theorem follows_forget (h : Agrees p s) (hstage : s.stage? c = some (.sending [])) :
    Follows p { p with inbound := p.inbound.forget c } s
      { s with shift := (s.shift.use (.forget c)).turn c .settled } := by
  refine .quiet (m := .forget c) h (by rw [allows, hstage]) rfl ?_ rfl
  exact congrArg (fun v : Shown => { v with inbound := v.inbound.forget c }) h

/-- A consumer is done with its change. -/
theorem follows_done (h : Agrees p s) (hstage : s.stage? c = some .settled) :
    Follows p (p.withInbound (p.inbound.done c)) s { s with shift := s.shift.done c } := by
  refine .quiet (m := .done c) h (by rw [allows, hstage]) rfl ?_ rfl
  rw [Pipeline.shown_withInbound, SharedQueue.done, SharedQueue.queue_become]
  exact congrArg (fun v : Shown => { v with inbound := v.inbound.done c }) h

/-- A consumer handles its change. -/
theorem follows_handleChange (h : Agrees p s) (hstage : s.stage? c = some .fresh) :
    ∃ s', Follows p (p.handleChange c) s s' ∧ s'.stage? c = some .settled := by
  obtain ⟨ws, p₁, s₁, hplan, hsending, hhandle⟩ := follows_plan h hstage
  obtain ⟨s₂, hsends, hsent⟩ := follows_sends ws hplan.agrees hsending
  have hforget := follows_forget hsends.agrees hsent
  rw [hhandle]
  exact ⟨_, (hplan.trans hsends).trans hforget, Shift.stage_self _ c Planning.settled⟩

/-! ## The turn -/

/-- **The turn of a consumer** is a list of moves of a relay. -/
theorem follows_turnConsumer (t run : TaskId) (n : Nat) (h : Agrees p s)
    (hfree : 0 < s.shift.crew.free) : ∃ s', Follows p (p.turnConsumer t run n) s s' := by
  induction n generalizing p s with
  | zero => exact ⟨s, .refl h⟩
  | succ n ih =>
    have hask := follows_ask h hfree t
    rw [Pipeline.turnConsumer]
    dsimp only
    rw [SharedQueue.hand_consult]
    cases hhand : p.inbound.queue.hand with
    | notYet => exact ⟨_, hask⟩
    | finished => exact ⟨_, hask.trans (.of_shown hask.agrees (Pipeline.shown_leave _ t run))⟩
    | item c =>
      have hhand' : s.shift.queue.hand = .item c :=
        (congrArg WorkQueue.hand (congrArg Shown.inbound h)).symm.trans hhand
      obtain ⟨s₁, hhandle, hsettled⟩ :=
        follows_handleChange hask.agrees (Shift.stage_of_hand hhand' .fresh)
      have hdone := follows_done hhandle.agrees hsettled
      obtain ⟨s₂, hrest⟩ := ih hdone.agrees (Nat.succ_pos _)
      exact ⟨s₂, (hask.trans hhandle).trans (hdone.trans hrest)⟩

end Relay

end BorderSync
