/-
# BorderSync.Proofs.Station.Retries -- how often an update is attempted

While the queue is not shut down, an update that was accepted once is attempted until it succeeds or has
failed as often as it may. It waits after each failure but the last, every time twice as long up to the
maximum. Other updates, the drawn delays and the number of workers play no part in this.
-/
import BorderSync.Proofs.Crew.LastOut
import BorderSync.Proofs.Station.Attempt
import BorderSync.Proofs.Station.Course

namespace BorderSync.Station

open Border Event

variable {settings : Settings} {s : Station} {u : Update} {ms : List Move}

/-- What ends the way of an update. -/
def Fate.ends : Fate → Bool
  | .judged .applied => true
  | .judged (.givenUp _) => true
  | .refused => true
  | .abandoned => true
  | _ => false

/-- Nothing ends in a failed round. -/
theorem ends_of_mem_rounds {k : Nat} {f : Fate} (h : f ∈ rounds settings k) : f.ends = false := by
  induction k with
  | zero => exact absurd h (by simp [rounds])
  | succ k ih =>
    rcases List.mem_append.mp h with h | h
    · exact ih h
    · simp only [List.mem_cons, List.not_mem_nil, or_false] at h
      rcases h with rfl | rfl | rfl <;> rfl

/-- The trail of an update shows an end exactly when the update has ended. -/
theorem any_ends_trail (st : Standing) :
    (trail settings st).any Fate.ends = true ↔ ∃ k e, st = .ended k e := by
  have hrounds : ∀ k, (rounds settings k).any Fate.ends = false := fun k => by
    simpa using fun f hf => ends_of_mem_rounds (f := f) hf
  cases st with
  | unknown => simp [trail]
  | due k => simp [trail, hrounds, Fate.ends]
  | tried k => simp [trail, hrounds, Fate.ends]
  | failed k => simp [trail, hrounds, Fate.ends]
  | ended k e =>
    refine ⟨fun _ => ⟨k, e, rfl⟩, fun _ => ?_⟩
    cases e with
    | abandoned begun => cases begun <;> simp [trail, course, Ending.fates, Fate.ends]
    | _ => simp [trail, course, Ending.fates, Fate.ends]

/-- Whatever an update has been through began with its being accepted. -/
theorem accepted_mem_trail {st : Standing} (h : st ≠ .unknown) : .accepted ∈ trail settings st := by
  cases st with
  | unknown => exact absurd rfl h
  | _ => simp [trail, course]

/-- **An update that was accepted once stands somewhere on its way.** -/
theorem stands_of_run (hfits : settings.Fits)
    (hl : (machine settings).legal (start settings) ms = true)
    (honce : (fates u (history settings (start settings) ms)).count .accepted ≤ 1) :
    ∃ st, fates u (history settings (start settings) ms) = trail settings st ∧
      Stands settings ((machine settings).run (start settings) ms).queue.closed
        (((machine settings).run (start settings) ms).view u) st := by
  refine history_keeps (P := fun s l => (fates u l).count .accepted ≤ 1 →
      ∃ st, fates u l = trail settings st ∧ Stands settings s.queue.closed (s.view u) st)
    (fun s l m t marks hsound hstands hstep hcount => ?_) (fun _ => ⟨.unknown, rfl, .unknown⟩) hl honce
  rw [fates_append, List.count_append] at hcount
  obtain ⟨st, htrail, hst⟩ := hstands (by omega)
  have honce : .accepted ∈ fates u marks → st = .unknown := by
    intro hmem
    -- it would have been accepted twice
    by_cases hunknown : st = .unknown
    · exact hunknown
    · have hone := List.count_pos_iff.mpr hmem
      have htwo := List.count_pos_iff.mpr (htrail ▸ accepted_mem_trail hunknown)
      omega
  obtain ⟨st', htrail', hst'⟩ := hst.turn (turn_of_step hfits hsound hstep u)
    (fun hstop => (hsound.stopped hstop).1) honce
  exact ⟨st', by rw [fates_append, htrail', htrail], hst'.close (closed_of_step hstep)⟩

/-! ## Counts -/

theorem Turn.requeues_lt {v v' : View} {fs : List Fate} (h : Turn settings s v fs v')
    (hv : v.requeues < attempts settings) : v'.requeues < attempts settings := by
  have hpos : 0 < attempts settings := Nat.le_max_left 1 _
  cases h with
  | finish call v hv => exact hpos
  | fail call hbelow => exact Nat.lt_of_lt_of_le hbelow (Nat.le_max_right 1 _)
  | abandon handling hundone hstopped => exact hpos
  | _ => exact hv

/-- Failures are counted below the largest number of attempts. -/
theorem requeues_lt_of_run (hfits : settings.Fits)
    (hl : (machine settings).legal (start settings) ms = true) (w : Update) :
    ((machine settings).run (start settings) ms).queue.requeues w < attempts settings :=
  ((machine settings).run_keeps
    (P := fun s => s.Sound settings ∧ (s.view w).requeues < attempts settings)
    (fun _ _ hs ha => ⟨hs.1.next _ ha, (turn_of_step hfits hs.1 (step_of_allows ha) w).requeues_lt hs.2⟩)
    ⟨.start settings, Nat.le_max_left 1 _⟩ hl).2

/-- One more failure can always be counted. -/
theorem attempts_le_ceiling (hfits : settings.Fits) : attempts settings ≤ Backoff.ceiling :=
  Nat.max_le.mpr ⟨by decide, hfits.retryCount⟩

/-! ## Where an update is -/

/-- What is on its way to a worker is expected by the queue. -/
theorem expects_iff (h : s.Sound settings) (u : Update) :
    s.shift.crew.expects u = true ↔ 0 < (s.view u).load := by
  have hcount : ∀ xs : List Update, xs.contains u = true ↔ 0 < xs.countP (u == ·) := fun xs =>
    List.contains_iff_exists_mem_beq.trans List.countP_pos_iff.symm
  unfold WorkQueue.Crew.expects
  rw [h.shift.crew.floor.queue.awaits, Bool.or_eq_true, hcount, hcount]
  show 0 < s.queue.dirty.countP (u == ·) ∨ 0 < s.shift.crew.floor.coming.countP (u == ·) ↔
    0 < s.shift.crew.floor.coming.countP (u == ·) + s.queue.dirty.countP (u == ·)
  omega

/-- An update on its way is expected or in hand, until it has ended. -/
theorem kept_of_stands (h : s.Sound settings) {closed : Bool} {st : Standing}
    (hst : Stands settings closed (s.view u) st) (hknown : st ≠ .unknown)
    (hgoing : ∀ k e, st ≠ .ended k e) :
    s.shift.crew.expects u = true ∨ s.shift.crew.floor.hands.contains u = true := by
  generalize hv : s.view u = v at hst
  cases hst with
  | unknown => exact absurd rfl hknown
  | queued hk hstage =>
    exact .inl ((expects_iff h u).mpr (Nat.lt_of_lt_of_eq Nat.one_pos (congrArg View.load hv).symm))
  | handed hk => exact .inr (h.shift.in_hand (congrArg View.stage hv))
  | tried hk call => exact .inr (h.shift.in_hand (congrArg View.stage hv))
  | failed hk => exact .inr (h.shift.in_hand (congrArg View.stage hv))
  | ended hk hstage hlate => exact absurd rfl (hgoing _ _)

/-- An open queue neither refuses nor abandons: what has happened to an update is the beginning of a
course. -/
theorem course_of_stands {v : View} {st : Standing} (hst : Stands settings false v st)
    (hknown : st ≠ .unknown) :
    ∃ k e, e.isLate = false ∧ e.Possible settings k ∧ trail settings st <+: course settings k e ∧
      ((trail settings st).any Fate.ends = true → trail settings st = course settings k e) := by
  have hgoing : ∀ {st : Standing}, (∀ k e, st ≠ .ended k e) →
      ¬(trail settings st).any Fate.ends = true := fun h hends => by
    obtain ⟨k, e, hover⟩ := (any_ends_trail _).mp hends
    exact h k e hover
  cases hst with
  | unknown => exact absurd rfl hknown
  | queued hk hstage =>
    exact ⟨_, .applied, rfl, hk, ⟨_, rfl⟩, fun h => absurd h (hgoing (by simp))⟩
  | handed hk => exact ⟨_, .applied, rfl, hk, ⟨_, rfl⟩, fun h => absurd h (hgoing (by simp))⟩
  | tried hk call =>
    refine ⟨_, .applied, rfl, hk, ⟨[.judged .applied], ?_⟩, fun h => absurd h (hgoing (by simp))⟩
    simp [trail, course, Ending.fates]
  | @failed k hk =>
    -- the round is to be completed by the add that is still to come
    refine ⟨_, .applied, rfl, hk, ⟨[.readded (pause settings k), .dispatched, .judged .applied], ?_⟩,
      fun h => absurd h (hgoing (by simp))⟩
    simp [trail, course, rounds, Ending.fates]
  | ended hk hstage hlate =>
    exact ⟨_, _, Bool.eq_false_iff.mpr fun h => Bool.false_ne_true (hlate h), hk, List.prefix_refl _,
      fun _ => rfl⟩

/-- An update that has ended is neither expected nor counted, if it was not refused. -/
theorem cleared_of_ended (h : s.Sound settings) {k : Nat} {e : Ending}
    (hst : Stands settings false (s.view u) (.ended k e)) :
    s.shift.crew.expects u = false ∧ s.queue.requeues u = 0 := by
  generalize hv : s.view u = v at hst
  cases hst with
  | ended hk hstage hlate =>
    refine ⟨?_, ?_⟩
    · refine Bool.eq_false_iff.mpr fun hexpects => ?_
      have hpos := (expects_iff h u).mp hexpects
      rw [hv] at hpos
      exact absurd hpos (Nat.lt_irrefl 0)
    · have hcount : s.queue.requeues u = e.requeues k := congrArg View.requeues hv
      rw [hcount]
      cases e with
      | refused => exact absurd (hlate rfl) Bool.false_ne_true
      | _ => rfl

/-- An idle queue expects nothing, and nobody has anything in hand. -/
theorem not_kept_of_idle (h : s.Sound settings) (hidle : s.queue.isIdle = true) :
    ¬(s.shift.crew.expects u = true ∨ s.shift.crew.floor.hands.contains u = true) := by
  obtain ⟨hload, hhands⟩ := h.shift.crew.floor.of_isIdle (p := (u == ·)) hidle
  rintro (hexpects | hhand)
  · exact absurd ((expects_iff h u).mp hexpects) (by rw [view, hload]; exact Nat.lt_irrefl 0)
  · exact absurd hhand (by rw [hhands u]; exact Bool.false_ne_true)

/-! ## Retries -/

/-- **Retried**: what a run makes of an update that was accepted once. -/
structure Retried (settings : Settings) (u : Update) (ms : List Move) : Prop where
  /-- Its way is the beginning of a course: failed rounds, and then a success or the last failure that is
  allowed. Nothing happens to it after that. -/
  course : ∃ k e, e.isLate = false ∧ e.Possible settings k ∧
    fates u (history settings (start settings) ms) <+: course settings k e ∧
    ((fates u (history settings (start settings) ms)).any Fate.ends = true →
      fates u (history settings (start settings) ms) = Station.course settings k e)
  /-- Every verdict on it goes by what its attempt has come to: a success is applied, and nothing else is. -/
  judged : ∀ before m after, ms = before ++ m :: after →
    ∀ v ∈ verdictsOn u (act settings ((machine settings).run (start settings) before) m).2,
      Earned u before v
  /-- As long as it has not ended, the queue expects it or a worker has it in hand. -/
  kept : (fates u (history settings (start settings) ms)).any Fate.ends = false →
    ((machine settings).run (start settings) ms).shift.crew.expects u = true ∨
      ((machine settings).run (start settings) ms).shift.crew.floor.hands.contains u = true
  /-- Once the queue is idle, it has ended. -/
  idle : ((machine settings).run (start settings) ms).queue.isIdle = true →
    (fates u (history settings (start settings) ms)).any Fate.ends = true
  /-- When it has ended, it is neither queued nor delayed nor counted. -/
  cleared : (fates u (history settings (start settings) ms)).any Fate.ends = true →
    ((machine settings).run (start settings) ms).shift.crew.expects u = false ∧
      ((machine settings).run (start settings) ms).queue.requeues u = 0
  /-- At every moment one failure more of any update can be counted. -/
  counted : ∀ ms₁ ms₂, ms = ms₁ ++ ms₂ → ∀ w,
    ((machine settings).run (start settings) ms₁).queue.requeues w + 1 ≤ Backoff.ceiling

/-- **Retries.** While the queue is not shut down, an update that was accepted once is attempted until its
first success or its last allowed failure, with a doubling wait after every other failure. -/
theorem run_retries (hfits : settings.Fits) (u : Update)
    (hl : (machine settings).legal (start settings) ms = true)
    (hopen : ((machine settings).run (start settings) ms).queue.closed = false)
    (honce : (fates u (history settings (start settings) ms)).count .accepted = 1) :
    Retried settings u ms := by
  have hsound := (Sound.start settings).run hl
  obtain ⟨st, htrail, hst⟩ := stands_of_run (u := u) hfits hl (Nat.le_of_eq honce)
  rw [hopen] at hst
  have hknown : st ≠ .unknown := by
    rintro rfl
    rw [htrail] at honce
    exact absurd honce (by simp [trail])
  have hkept : (fates u (history settings (start settings) ms)).any Fate.ends = false → _ :=
    fun hgoing => kept_of_stands hsound hst hknown fun k e hover => by
      rw [htrail, (any_ends_trail st).mpr ⟨k, e, hover⟩] at hgoing
      exact absurd hgoing (by simp)
  refine ⟨?_, fun before m after hsplit v hv => ?_, hkept, fun hidle => ?_, fun hends => ?_,
    fun ms₁ ms₂ hsplit w => ?_⟩
  · rw [htrail]
    exact course_of_stands hst hknown
  · rw [hsplit] at hl
    exact earned_of_judged hl hv
  · by_cases hends : (fates u (history settings (start settings) ms)).any Fate.ends = true
    · exact hends
    · exact absurd (hkept (Bool.eq_false_iff.mpr hends)) (not_kept_of_idle hsound hidle)
  · obtain ⟨k, e, rfl⟩ := (any_ends_trail st).mp (htrail ▸ hends)
    exact cleared_of_ended hsound hst
  · rw [hsplit] at hl
    have hcount := requeues_lt_of_run hfits (((machine settings).legal_append _ _ _).mp hl).1 w
    exact Nat.le_trans hcount (attempts_le_ceiling hfits)

/-- The unwanted entry is listed again; this time the missing one can be posted, and the unwanted one be
deleted. -/
def granted : List Answer :=
  [.ok ⟨200, (Json.Value.array [Entry.toJson .http { id := some 7, server := "10.0.0.9:80" }]).render⟩,
    .ok ⟨201, []⟩, .ok ⟨200, []⟩]

/-- The first attempt at an update ends with a refused post, and the second one is granted. -/
def resumed : List Move :=
  [.schedule unmet 0, .pass 10, .land unmet, .ask, .begin unmet] ++ refusedAttempt ++
    [.readd unmet, .done unmet, .pass 500, .land unmet, .ask, .begin unmet] ++
      granted.map (.answer unmet) ++ [.settle unmet, .done unmet]

/-- An update whose first attempt was refused is attempted again after the first wait, and applied. -/
theorem run_retries_resumed :
    Retried {} unmet resumed ∧
      fates unmet (history {} (start {}) resumed) = [.accepted, .dispatched, .judged (.again 1),
        .readded (.ofMillis 500), .dispatched, .judged .applied] ∧
        (requestsFor unmet (history {} (start {}) resumed)).map Request.method =
          [.get, .post, .get, .post, .delete] :=
  ⟨run_retries ⟨by decide, by decide⟩ unmet (by decide +kernel) (by decide +kernel) (by decide +kernel),
    by decide +kernel, by decide +kernel⟩

end BorderSync.Station
