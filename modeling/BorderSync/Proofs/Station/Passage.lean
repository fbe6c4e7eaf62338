/-
# BorderSync.Proofs.Station.Passage -- that accepted updates come to a worker that begins with them

When a run has ended, every update that it had accepted was dispatched afterwards, at least once, or it
was abandoned. The latter is possible only when patience has run out, and from then on no request is made
for any update.
-/
import BorderSync.Proofs.Station.Concluded

namespace BorderSync.Station

open Border Event

variable {settings : Settings} {s t : Station} {u : Update} {m : Move} {ms : List Move}
  {marks before after : List Mark}

/-- **Due**: an update is on its way to a worker, or a worker has it in hand and has not begun. -/
def View.Due (v : View) : Prop :=
  0 < v.load ∨ v.stage = some .fresh

/-- An update stays due until it is dispatched or abandoned. -/
theorem Turn.due {v v' : View} {fs : List Fate} (h : Turn settings s v fs v') (hdue : v.Due) :
    v'.Due ∨ ∃ f ∈ fs, f = .dispatched ∨ f = .abandoned := by
  -- an update that a worker has begun with is due only if it is on its way once more
  have hload : ∀ {n k stage}, stage ≠ .fresh → View.Due ⟨n, some stage, k⟩ → 0 < n :=
    fun hstage hdue => hdue.resolve_right fun h => hstage (Option.some.inj h)
  cases h with
  | aside v => exact .inl hdue
  | accept hopen hle hle' hpos => exact .inl (.inl hpos)
  | land hle hpos => exact .inl (hdue.imp_left hpos)
  | take => exact .inl (.inr rfl)
  | begin call hgoing => exact .inr ⟨.dispatched, List.mem_singleton_self _, .inl rfl⟩
  | answer call call' => exact .inl (.inl (hload (by simp) hdue))
  | finish call v hv => exact .inl (.inl (hload (by simp) hdue))
  | fail call hbelow => exact .inl (.inl (hload (by simp) hdue))
  | readd wait hopen hle hle' hpos => exact .inl (.inl hpos)
  | refuse wait hclosed => exact .inl (.inl (hload (by simp) hdue))
  | abandon h hundone hstopped => exact .inr ⟨.abandoned, List.mem_singleton_self _, .inr rfl⟩
  | done => exact .inl (.inl (hload (by simp) hdue))

/-- What is due is busy. -/
theorem View.Due.busy {v : View} (h : v.Due) : v.Busy :=
  h.imp_right fun hstage => ⟨.fresh, hstage, by simp⟩

/-! ## When patience has run out -/

/-- Patience that has run out does not come back. -/
theorem stopped_of_step (hstep : Step settings s m t marks) (hstopped : s.hardStop = true) :
    t.hardStop = true := by
  cases hstep with
  | hurry hphase hgoing hgrace => rfl
  | _ => exact hstopped

/-- A request is made only while there is patience. -/
theorem going_of_requested {q : Request} (hstep : Step settings s m t marks)
    (hmem : .requested u q ∈ marks) : s.hardStop = false := by
  cases hstep with
  | begin w hstage hgoing => exact hgoing
  | answer w a q' next hstage hgoing => exact hgoing
  | _ => exact absurd hmem (by simp)

/-- An update is accepted only by an open queue. -/
theorem open_of_accepted (hstep : Step settings s m t marks) (hmem : .accepted u ∈ marks) :
    s.queue.closed = false := by
  cases hstep with
  | accept w r delay hhost hopen => exact hopen
  | begin w hstage hgoing => exact absurd hmem (not_mem_begin rfl _ _)
  | answer w a q next hstage hgoing => exact absurd hmem (not_mem_requestMarks rfl _)
  | _ => exact absurd hmem (by simp)

/-- Patience runs out while the queue is drained, when the time of grace is over, with a warning. -/
theorem hurried_of_step {moment : Nat} {reports : List Report} (hstep : Step settings s m t marks)
    (hmem : .hurried moment reports ∈ marks) :
    s.now = moment ∧ reports = [Delivery.graceReport] ∧ s.shift.phase = .draining ∧
      s.graceEnd ≤ s.now ∧ t.hardStop = true := by
  cases hstep with
  | hurry hphase hgoing hgrace =>
    simp only [List.mem_singleton, Mark.hurried.injEq] at hmem
    obtain ⟨rfl, rfl⟩ := hmem
    exact ⟨rfl, rfl, hphase, hgrace, rfl⟩
  | begin w hstage hgoing => exact absurd hmem (not_mem_begin rfl _ _)
  | answer w a q next hstage hgoing => exact absurd hmem (not_mem_requestMarks rfl _)
  | _ => exact absurd hmem (by simp)

/-- The history tells whether patience has run out. -/
structure Timed (s : Station) (l : List Mark) : Prop where
  hurried : s.hardStop = true → ∃ moment, .hurried moment [Delivery.graceReport] ∈ l
  stopped : ∀ moment reports, .hurried moment reports ∈ l → s.hardStop = true

theorem Timed.step {l : List Mark} (h : Timed s l) (hstep : Step settings s m t marks) :
    Timed t (l ++ marks) := by
  refine ⟨fun hstopped => ?_, fun moment reports hmem => ?_⟩
  · have hkept : s.hardStop = true → ∃ moment, .hurried moment [Delivery.graceReport] ∈ l ++ marks :=
      fun hstopped => (h.hurried hstopped).imp fun _ hmem => List.mem_append_left _ hmem
    cases hstep with
    | hurry hphase hgoing hgrace => exact ⟨_, List.mem_append_right _ (List.mem_singleton_self _)⟩
    | _ => exact hkept hstopped
  · rcases List.mem_append.mp hmem with hmem | hmem
    · exact stopped_of_step hstep (h.stopped moment reports hmem)
    · exact (hurried_of_step hstep hmem).2.2.2.2

theorem timed_of_run (hl : (machine settings).legal (start settings) ms = true) :
    Timed ((machine settings).run (start settings) ms) (history settings (start settings) ms) :=
  history_keeps (fun _ _ _ _ _ _ h hstep => h.step hstep)
    ⟨fun h => absurd h Bool.false_ne_true, fun _ _ h => absurd h List.not_mem_nil⟩ hl

/-- **When patience has run out, no request is made any more.** -/
theorem unrequested_of_hurried (hl : (machine settings).legal (start settings) ms = true)
    {moment : Nat} {reports : List Report}
    (hsplit : history settings (start settings) ms = before ++ .hurried moment reports :: after)
    (w : Update) (q : Request) : .requested w q ∉ after := by
  intro hmem
  obtain ⟨a, b, rfl⟩ := List.append_of_mem hmem
  have hsplit' : history settings (start settings) ms =
      (before ++ .hurried moment reports :: a) ++ .requested w q :: b := by simpa using hsplit
  obtain ⟨ms₁, m, ms₂, l₁, l₂, rfl, hmarks, hbefore⟩ := (machine settings).log_split hsplit'
  obtain ⟨hl₁, hl₂⟩ := ((machine settings).legal_append _ _ _).mp hl
  have hstep := step_of_allows ((machine settings).legal_cons _ _ _ |>.mp hl₂).1
  have hgoing := going_of_requested (u := w) (q := q) hstep (by rw [hmarks]; simp)
  have hmem : .hurried moment reports ∈ history settings (start settings) ms₁ ++ l₁ := by
    rw [history, ← hbefore]
    simp
  -- patience has run out with an earlier move, or with this one, which then makes no request
  rcases List.mem_append.mp hmem with hmem | hmem
  · exact absurd (hgoing.symm.trans ((timed_of_run hl₁).stopped _ _ hmem)) Bool.false_ne_true
  · have hsingle := eq_singleton_of_step hstep (hmarks ▸ List.mem_append_left _ hmem) rfl
    have hrequested : .requested w q ∈ [Mark.hurried moment reports] := by
      rw [← hsingle, hmarks]
      simp
    exact absurd hrequested (by simp)

/-- An update that is abandoned was accepted before patience ran out. -/
theorem hurried_of_abandoned (hl : (machine settings).legal (start settings) ms = true)
    {moment : Nat} {reports : List Report}
    (hsplit : history settings (start settings) ms = before ++ .accepted u :: after)
    (hmem : .abandoned u moment reports ∈ after) :
    ∃ a b since moment', after = a ++ .hurried moment' [Delivery.graceReport] :: b ∧
      .abandoned u moment [Delivery.abandonReport u] ∈ b ∧
      .closed since ∈ before ++ .accepted u :: a ∧ since + 1000 * Delivery.graceSeconds ≤ moment' := by
  obtain ⟨a', c, rfl⟩ := List.append_of_mem hmem
  have hsplit' : history settings (start settings) ms =
      (before ++ .accepted u :: a') ++ .abandoned u moment reports :: c := by simpa using hsplit
  obtain ⟨ms₁, m, t, marks, hbefore, hl₁, hstep, hmem⟩ := step_of_mark rfl hl hsplit'
  obtain ⟨-, rfl, hstopped⟩ := abandoned_of_step hstep hmem
  obtain ⟨moment', hhurried⟩ := (timed_of_run hl₁).hurried hstopped
  rw [← hbefore] at hhurried
  rcases List.mem_append.mp hhurried with hhurried | hhurried
  · -- patience would have run out while the queue was open
    obtain ⟨ms₂, m, t, marks, hearlier, hl₂, hstep, hmem⟩ := step_of_mark rfl hl hsplit
    obtain ⟨hclosed, -⟩ := ((Sound.start settings).run hl₂).stopped
      ((timed_of_run hl₂).stopped _ _ (hearlier ▸ hhurried))
    exact absurd ((open_of_accepted hstep hmem).symm.trans hclosed) Bool.false_ne_true
  · obtain ⟨a, b, rfl⟩ := List.append_of_mem ((List.mem_cons.mp hhurried).resolve_left (by simp))
    have hsplit' : history settings (start settings) ms = (before ++ .accepted u :: a) ++
        .hurried moment' [Delivery.graceReport] ::
          (b ++ .abandoned u moment [Delivery.abandonReport u] :: c) := by simpa using hsplit
    obtain ⟨ms₂, m, t, marks, hearlier, hl₂, hstep, hmem⟩ := step_of_mark rfl hl hsplit'
    obtain ⟨rfl, -, hphase, hgrace, -⟩ := hurried_of_step hstep hmem
    refine ⟨a, b ++ .abandoned u moment [Delivery.abandonReport u] :: c, _, _, by simp, by simp, ?_, hgrace⟩
    exact hearlier ▸ (dated_of_run hl₂).closed (by simp [hphase])

/-! ## The end -/

/-- **Passed**: after its acceptance an update was dispatched, or patience ran out when the time of grace
was over, from when on no request was made, and it was abandoned with a warning. -/
def Passed (u : Update) (before after : List Mark) : Prop :=
  (∃ reports, .dispatched u reports ∈ after) ∨
    ∃ a b since moment, after = a ++ .hurried moment [Delivery.graceReport] :: b ∧
      .closed since ∈ before ++ .accepted u :: a ∧ since + 1000 * Delivery.graceSeconds ≤ moment ∧
      (∃ moment', .abandoned u moment' [Delivery.abandonReport u] ∈ b) ∧ ∀ w q, .requested w q ∉ b

/-- **When a run has ended, every accepted update has passed.** -/
theorem passed_of_accepted (hfits : settings.Fits)
    (hl : (machine settings).legal (start settings) ms = true)
    (hended : ((machine settings).run (start settings) ms).shift.phase = .ended)
    (hsplit : history settings (start settings) ms = before ++ .accepted u :: after) :
    Passed u before after := by
  have hdone := not_busy_of_ended ((Sound.start settings).run hl) hended u
  obtain ⟨f, hf, hanswers⟩ := answered_of_accepted hfits (fun h hdue => h.due hdue) .inl
    (.start settings) hl (fun hdue => hdone hdue.busy) hsplit
  obtain ⟨k, hk, habout⟩ := mem_fates.mp hf
  rcases hanswers with rfl | rfl
  · refine .inl ?_
    cases k with
    | dispatched w reports =>
      obtain rfl : w = u := congrArg Prod.fst (Option.some.inj habout)
      exact ⟨reports, hk⟩
    | _ => exact absurd habout (by simp [Mark.about?])
  · refine .inr ?_
    cases k with
    | abandoned w moment reports =>
      obtain rfl : w = u := congrArg Prod.fst (Option.some.inj habout)
      obtain ⟨a, b, since, moment', rfl, habandoned, hclosed, hgrace⟩ := hurried_of_abandoned hl hsplit hk
      have hsplit' : history settings (start settings) ms =
          (before ++ .accepted w :: a) ++ .hurried moment' [Delivery.graceReport] :: b := by
        simpa using hsplit
      exact ⟨a, b, since, moment', rfl, hclosed, hgrace, ⟨moment, habandoned⟩,
        unrequested_of_hurried hl hsplit'⟩
    | _ => exact absurd habout (by simp [Mark.about?])

end BorderSync.Station
