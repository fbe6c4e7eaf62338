/-
# BorderSync.Proofs.Station.Concluded -- what a station that was stopped can answer for

When a run has ended, each update that it had accepted has ended in one of four ways, and each way has its
conditions: the reports that belong to it, the number of attempts before it, and the moment from which on
it is possible. The fourth way is not one that the reports tell of: an update whose attempt fails during
the drain is not tried again, not given up and not abandoned.
-/
import BorderSync.Proofs.Station.Ends

namespace BorderSync.Station

open Border Event

variable {settings : Settings} {s t : Station} {u : Update} {m : Move} {ms : List Move}
  {marks before after : List Mark}

/-! ## Moves with a single mark -/

/-- The mark belongs to an attempt that goes on. -/
def Mark.isAttempt : Mark → Bool
  | .dispatched _ _ => true
  | .requested _ _ => true
  | _ => false

theorem not_mem_requestMarks {k : Mark} (hk : k.isAttempt = false) (call : Call Outcome) :
    k ∉ requestMarks u call := by
  cases call with
  | done o => exact List.not_mem_nil
  | ask q next =>
    intro hmem
    obtain rfl := List.mem_singleton.mp hmem
    exact absurd hk (by simp [Mark.isAttempt])

theorem not_mem_begin {k : Mark} (hk : k.isAttempt = false) (reports : List Report)
    (call : Call Outcome) : k ∉ .dispatched u reports :: requestMarks u call := by
  intro hmem
  rcases List.mem_cons.mp hmem with rfl | hmem
  · exact absurd hk (by simp [Mark.isAttempt])
  · exact not_mem_requestMarks hk call hmem

/-- Any other mark is the only one of its move. -/
theorem eq_singleton_of_step {k : Mark} (hstep : Step settings s m t marks) (hmem : k ∈ marks)
    (hk : k.isAttempt = false) : marks = [k] := by
  cases hstep with
  | begin u hstage hgoing => exact absurd hmem (not_mem_begin hk _ _)
  | answer u a q next hstage hgoing => exact absurd hmem (not_mem_requestMarks hk _)
  | _ =>
    simp only [List.mem_singleton, List.not_mem_nil] at hmem
    try rw [hmem]

/-- **The move behind a mark** comes after the moves that left the marks before it. -/
theorem step_of_mark {k : Mark} (hk : k.isAttempt = false)
    (hl : (machine settings).legal (start settings) ms = true)
    (hsplit : history settings (start settings) ms = before ++ k :: after) :
    ∃ ms₁ m t marks, before = history settings (start settings) ms₁ ∧
      (machine settings).legal (start settings) ms₁ = true ∧
      Step settings ((machine settings).run (start settings) ms₁) m t marks ∧ k ∈ marks := by
  obtain ⟨ms₁, m, ms₂, l₁, l₂, rfl, hmarks, rfl⟩ := (machine settings).log_split hsplit
  obtain ⟨hl₁, hl₂⟩ := ((machine settings).legal_append _ _ _).mp hl
  have hstep := step_of_allows ((machine settings).legal_cons _ _ _ |>.mp hl₂).1
  have hmem : k ∈ (act settings ((machine settings).run (start settings) ms₁) m).2 := by
    rw [hmarks]
    simp
  obtain rfl : l₁ = [] := by
    have hlength := congrArg List.length ((eq_singleton_of_step hstep hmem hk).symm.trans hmarks)
    simp only [List.length_append, List.length_cons, List.length_nil] at hlength
    exact List.eq_nil_of_length_eq_zero (by omega)
  exact ⟨ms₁, m, _, _, List.append_nil _, hl₁, hstep, hmem⟩

/-! ## The shutdown in the history -/

/-- The history tells when the queue was shut down. -/
structure Dated (s : Station) (l : List Mark) : Prop where
  closed : s.shift.phase ≠ .running → .closed s.closedAt ∈ l
  shut : ∀ moment, .closed moment ∈ l → s.queue.closed = true

theorem Dated.step {l : List Mark} (h : Dated s l) (hstep : Step settings s m t marks) :
    Dated t (l ++ marks) := by
  have hclosed : t.shift.phase ≠ .running → .closed t.closedAt ∈ l ++ marks := by
    intro hphase
    cases hstep with
    | close hphase => exact List.mem_append_right _ (List.mem_singleton_self _)
    | drained hdraining hidle => exact List.mem_append_left _ (h.closed (by simp [hdraining]))
    | join hjoining hgone => exact List.mem_append_left _ (h.closed (by simp [hjoining]))
    | _ => exact List.mem_append_left _ (h.closed hphase)
  refine ⟨hclosed, fun moment hmem => ?_⟩
  rcases List.mem_append.mp hmem with hmem | hmem
  · exact closed_of_step hstep (h.shut moment hmem)
  · cases hstep with
    | close hphase => rfl
    | begin u hstage hgoing => exact absurd hmem (not_mem_begin rfl _ _)
    | answer u a q next hstage hgoing => exact absurd hmem (not_mem_requestMarks rfl _)
    | _ => exact absurd hmem (by simp)

theorem dated_of_run (hl : (machine settings).legal (start settings) ms = true) :
    Dated ((machine settings).run (start settings) ms) (history settings (start settings) ms) :=
  history_keeps (fun _ _ _ _ _ _ h hstep => h.step hstep)
    ⟨fun h => absurd rfl h, fun _ h => absurd h (by simp)⟩ hl

/-- A queue that is shut down was shut down at some moment. -/
theorem exists_closed (hl : (machine settings).legal (start settings) ms = true)
    (hclosed : ((machine settings).run (start settings) ms).queue.closed = true) :
    .closed ((machine settings).run (start settings) ms).closedAt ∈ history settings (start settings) ms :=
  (dated_of_run hl).closed (((Sound.start settings).run hl).shift.closed_iff.mp hclosed)

/-! ## What single steps tell -/

/-- An update is given up after its last attempt, with the warning that shows all of it. -/
theorem givenUp_of_step {n : Nat} {reports : List Report}
    (hstep : Step settings s m t marks) (hmem : .judged u (.givenUp n) reports ∈ marks) :
    n = s.queue.requeues u + 1 ∧ settings.outbound.retryCount ≤ n ∧
      ∃ e, ∀ r ∈ Delivery.failureReport settings.outbound.retryCount u e (.givenUp n), r ∈ reports := by
  cases hstep with
  | finish w o v hstage hv hfinal =>
    simp only [List.mem_singleton, Mark.judged.injEq] at hmem
    obtain ⟨rfl, rfl, rfl⟩ := hmem
    cases hresult : o.result with
    | ok r =>
      rw [hresult] at hv
      exact absurd hv (by simp [Delivery.verdict])
    | error e =>
      rw [hresult] at hv
      have hlimit : ¬s.queue.requeues u + 1 < settings.outbound.retryCount := by
        intro hbelow
        rw [Delivery.verdict, if_pos hbelow] at hv
        exact absurd hv (by simp)
      obtain rfl : s.queue.requeues u + 1 = n := by
        rw [Delivery.verdict, if_neg hlimit] at hv
        exact Delivery.Verdict.givenUp.inj hv
      refine ⟨rfl, by omega, e, fun r hr => List.mem_append_right _ ?_⟩
      rw [Delivery.attemptReports, hv]
      exact hr
  | begin w hstage hgoing => exact absurd hmem (not_mem_begin rfl _ _)
  | answer w a q next hstage hgoing => exact absurd hmem (not_mem_requestMarks rfl _)
  | _ => exact absurd hmem (by simp)

/-- An update is abandoned only when patience has run out. -/
theorem abandoned_of_step {moment : Nat} {reports : List Report}
    (hstep : Step settings s m t marks) (hmem : .abandoned u moment reports ∈ marks) :
    s.now = moment ∧ reports = [Delivery.abandonReport u] ∧ s.hardStop = true := by
  cases hstep with
  | abandon w handling hstage hundone hstopped =>
    simp only [List.mem_singleton, Mark.abandoned.injEq] at hmem
    obtain ⟨rfl, rfl, rfl⟩ := hmem
    exact ⟨rfl, rfl, hstopped⟩
  | begin w hstage hgoing => exact absurd hmem (not_mem_begin rfl _ _)
  | answer w a q next hstage hgoing => exact absurd hmem (not_mem_requestMarks rfl _)
  | _ => exact absurd hmem (by simp)

/-- An update is added again only to an open queue. -/
theorem open_of_readded {wait : Duration} (hstep : Step settings s m t marks)
    (hmem : .readded u wait ∈ marks) : s.queue.closed = false := by
  cases hstep with
  | readd w wait hstage hopen => exact hopen
  | begin w hstage hgoing => exact absurd hmem (not_mem_begin rfl _ _)
  | answer w a q next hstage hgoing => exact absurd hmem (not_mem_requestMarks rfl _)
  | _ => exact absurd hmem (by simp)

/-- An update is refused only by a queue that is shut down. -/
theorem closed_of_refused {reports : List Report} (hstep : Step settings s m t marks)
    (hmem : .refused u reports ∈ marks) : s.queue.closed = true := by
  cases hstep with
  | refuse w wait reports hstage hclosed => exact hclosed
  | begin w hstage hgoing => exact absurd hmem (not_mem_begin rfl _ _)
  | answer w a q next hstage hgoing => exact absurd hmem (not_mem_requestMarks rfl _)
  | _ => exact absurd hmem (by simp)

/-! ## The end -/

/-- **Concluded**: how the updates that a run has accepted have ended. -/
structure Concluded (settings : Settings) (u : Update) (ms : List Move) : Prop where
  /-- Whenever it was accepted, it ended afterwards. -/
  ends : ∀ before after, history settings (start settings) ms = before ++ .accepted u :: after →
    ∃ f ∈ fates u after, f.ends = true
  /-- If it was accepted once, it ended once, and nothing happened to it after that. -/
  once : (fates u (history settings (start settings) ms)).count .accepted = 1 →
    ∃ k e, e.Possible settings k ∧ fates u (history settings (start settings) ms) = course settings k e
  /-- It was given up only after it had failed as often as it may, with the warning that carries it. -/
  given_up : ∀ before after n reports,
    history settings (start settings) ms = before ++ .judged u (.givenUp n) reports :: after →
      n = attempts settings ∧ n = streak (fates u before) + 1 ∧
        ∃ e, ∀ r ∈ Delivery.failureReport settings.outbound.retryCount u e (.givenUp n), r ∈ reports
  /-- It was abandoned only after the time of grace, with a warning. -/
  abandoned : ∀ before after moment reports,
    history settings (start settings) ms = before ++ .abandoned u moment reports :: after →
      reports = [Delivery.abandonReport u] ∧
        ∃ since, .closed since ∈ before ∧ since + 1000 * Delivery.graceSeconds ≤ moment
  /-- It was refused only after the shutdown of the queue. -/
  refused : ∀ before after reports,
    history settings (start settings) ms = before ++ .refused u reports :: after →
      ∃ since, .closed since ∈ before
  /-- After the shutdown of the queue no attempt was repeated. -/
  unrepeated : ∀ before after since,
    history settings (start settings) ms = before ++ .closed since :: after →
      ∀ wait, .readded u wait ∉ after
  /-- If it was never refused, its failures are forgotten. -/
  forgotten : .refused ∉ fates u (history settings (start settings) ms) →
    ((machine settings).run (start settings) ms).queue.requeues u = 0

/-- **Conclusion.** When a run has ended, each update that it had accepted has succeeded, was given up,
abandoned or refused. -/
theorem run_concludes (hfits : settings.Fits) (u : Update)
    (hl : (machine settings).legal (start settings) ms = true)
    (hended : ((machine settings).run (start settings) ms).shift.phase = .ended) :
    Concluded settings u ms := by
  have hsound := (Sound.start settings).run hl
  have hdone := not_busy_of_ended hsound hended u
  refine ⟨?_, ?_, ?_, ?_, ?_, ?_, ?_⟩
  · exact fun before after hsplit => ends_of_accepted hfits (.start settings) hl hdone hsplit
  · intro honce
    obtain ⟨st, htrail, hst⟩ := stands_of_run (u := u) hfits hl (Nat.le_of_eq honce)
    cases st with
    | ended k e => exact ⟨k, e, hst.possible, htrail⟩
    | unknown =>
      rw [htrail] at honce
      exact absurd honce (by simp [trail])
    | _ =>
      -- an update that has not ended is on its way or in hand, and nothing is
      exact absurd (kept_of_stands hsound hst (by simp) (by simp))
        (not_kept_of_idle hsound (hsound.shift.idle (.inr hended)))
  · intro before after n reports hsplit
    obtain ⟨ms₁, m, t, marks, rfl, hl₁, hstep, hmem⟩ := step_of_mark rfl hl hsplit
    obtain ⟨hn, hlimit, hwarning⟩ := givenUp_of_step hstep hmem
    have hlt := requeues_lt_of_run hfits hl₁ u
    have hattempts : attempts settings = max 1 settings.outbound.retryCount := rfl
    exact ⟨by omega, by rw [hn, requeues_eq_streak hfits hl₁], hwarning⟩
  · intro before after moment reports hsplit
    obtain ⟨ms₁, m, t, marks, rfl, hl₁, hstep, hmem⟩ := step_of_mark rfl hl hsplit
    obtain ⟨rfl, rfl, hstopped⟩ := abandoned_of_step hstep hmem
    obtain ⟨hclosed, hgrace⟩ := ((Sound.start settings).run hl₁).stopped hstopped
    exact ⟨rfl, _, exists_closed hl₁ hclosed, hgrace⟩
  · intro before after reports hsplit
    obtain ⟨ms₁, m, t, marks, rfl, hl₁, hstep, hmem⟩ := step_of_mark rfl hl hsplit
    exact ⟨_, exists_closed hl₁ (closed_of_refused hstep hmem)⟩
  · intro before after since hsplit wait hmem
    obtain ⟨a, b, rfl⟩ := List.append_of_mem hmem
    have hsplit' : history settings (start settings) ms =
        (before ++ .closed since :: a) ++ .readded u wait :: b := by simpa using hsplit
    obtain ⟨ms₁, m, t, marks, hbefore, hl₁, hstep, hmem⟩ := step_of_mark rfl hl hsplit'
    have hshut := (dated_of_run hl₁).shut since (hbefore ▸ by simp)
    exact absurd ((open_of_readded hstep hmem).symm.trans hshut) Bool.false_ne_true
  · intro hrefused
    exact Nat.eq_zero_of_not_pos fun hpos => hdone (busy_of_counted hfits hl hrefused hpos)

/-- An update that can never be carried out, because it deletes nothing. -/
def futile : Update :=
  { kind := .deleted, upstream := "tea", clientType := "http", servers := [], id := "1", host := "tea" }

/-- An update that is in hand when patience runs out is abandoned. -/
theorem run_concludes_abandoned :
    (machine {}).legal (start {}) [.schedule futile 0, .land futile, .ask, .close, .pass 30000, .hurry,
        .abandon futile, .done futile, .ask, .drained, .join] = true ∧
      Concluded {} futile [.schedule futile 0, .land futile, .ask, .close, .pass 30000, .hurry,
        .abandon futile, .done futile, .ask, .drained, .join] :=
  ⟨by decide, run_concludes ⟨by decide, by decide⟩ futile (by decide) (by decide)⟩

/-- The run is told to stop while an update is attempted that fails. -/
def refusing : List Move :=
  [.schedule futile 0, .land futile, .ask, .begin futile, .close, .settle futile, .readd futile,
    .done futile, .ask, .drained, .join]

/-- **A failure during the drain is not answered for.** An update that was accepted once before the
shutdown need not have succeeded, been given up or been abandoned when the run has ended, and its failure
may still be counted. -/
theorem drops_failed : ¬ ∀ (settings : Settings) (u : Update) (ms : List Move), settings.Fits →
    settings.validate? = none → (machine settings).legal (start settings) ms = true →
      ((machine settings).run (start settings) ms).shift.phase = .ended →
        (fates u (history settings (start settings) ms)).count .accepted = 1 →
          (.judged .applied ∈ fates u (history settings (start settings) ms) ∨
              (∃ n, .judged (.givenUp n) ∈ fates u (history settings (start settings) ms)) ∨
              .abandoned ∈ fates u (history settings (start settings) ms)) ∧
            ((machine settings).run (start settings) ms).queue.requeues u = 0 := by
  intro h
  obtain ⟨hways, -⟩ := h { outbound := { retryCount := 3 } } futile refusing
    ⟨by decide, by decide⟩ (by decide) (by decide) (by decide) (by decide)
  rw [show fates futile (history { outbound := { retryCount := 3 } }
      (start { outbound := { retryCount := 3 } }) refusing) =
    [.accepted, .dispatched, .judged (.again 1), .refused] by decide] at hways
  exact absurd hways (by simp)

end BorderSync.Station
