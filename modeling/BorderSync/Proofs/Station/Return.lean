/-
# BorderSync.Proofs.Station.Return -- that a station which was told to stop comes to its end

After the shutdown of the queue every move that a worker, a timer or the run itself can make lowers the
labour that is left. Answers of border servers are not needed for that: when patience has run out, what is
being attempted is abandoned. So when the time of grace is over and no such move is possible, the run has
ended.
-/
import BorderSync.Proofs.Crew.Labour
import BorderSync.Proofs.Endless
import BorderSync.Proofs.Station.Course

namespace BorderSync

open Border Event

/-- How much there is to do with an update at this stage. -/
def Handling.weight : Handling → Nat
  | .fresh => 5
  | .asking _ => 4
  | .again _ => 3
  | .settled => 2

namespace Station

variable {settings : Settings} {s t : Station} {m : Move} {marks : List Mark}

/-- **Works**: the move is one of the station itself, and gets something done. What producers, border
servers, clocks and those who stop the run do is not counted on. -/
def works (s : Station) : Move → Bool
  | .ask =>
    match s.queue.hand with
    | .notYet => false
    | _ => true
  | .pass _ => false
  | .schedule _ _ => false
  | .answer _ _ => false
  | .close => false
  | _ => true

/-- **Labour** that is left. -/
def labour (s : Station) : Nat :=
  s.shift.labour Handling.weight + if s.hardStop then 0 else 1

theorem labour_use (hclosed : s.queue.closed = true) {m : WorkQueue.Move Update}
    (hm : Shift.isUse m = true) (hland : ∀ x, m ≠ .land x) : (s.use m).labour = s.labour :=
  congrArg (· + _) (Shift.labour_use hclosed hm hland)

theorem labour_turn {u : Update} {old : Handling} (hstage : s.stage? u = some old) (new : Handling) :
    (s.turn u new).labour + old.weight ≤ s.labour + new.weight := by
  have hturn := Shift.labour_turn (w := Handling.weight) hstage new
  show (s.shift.turn u new).labour Handling.weight + (if s.hardStop then 0 else 1) + old.weight ≤ _
  unfold labour
  omega

/-- What is settled leaves less to do than what was not. -/
theorem labour_settle (hclosed : s.queue.closed = true) {u : Update} {old new : Handling}
    (hstage : s.stage? u = some old) {m : WorkQueue.Move Update} (hm : Shift.isUse m = true)
    (hland : ∀ x, m ≠ .land x) (hless : new.weight < old.weight) :
    ((s.use m).turn u new).labour < s.labour := by
  have huse := labour_use hclosed hm hland
  have hturn := labour_turn (s := s.use m) hstage new
  omega

/-- **Work lowers the labour, and nothing raises it**, once the queue is shut down. -/
theorem labour_of_step (h : s.Sound settings) (hclosed : s.queue.closed = true)
    (hstep : Step settings s m t marks) :
    t.labour ≤ s.labour ∧ (s.works m = true → t.labour < s.labour) := by
  have hless : t.labour < s.labour → t.labour ≤ s.labour ∧ (s.works m = true → t.labour < s.labour) :=
    fun h => ⟨Nat.le_of_lt h, fun _ => h⟩
  have hask : 0 < s.shift.crew.free →
      ({ s with shift := s.shift.ask .fresh } : Station).labour ≤ s.labour ∧ (s.works .ask = true →
        ({ s with shift := s.shift.ask .fresh } : Station).labour < s.labour) := fun hfree => by
    by_cases hhand : s.queue.hand = .notYet
    · rw [Shift.ask_of_notYet hhand]
      exact ⟨Nat.le_refl _, fun hworks => absurd hworks (by simp [works, hhand])⟩
    · have hlt : ({ s with shift := s.shift.ask .fresh } : Station).labour < s.labour :=
        Nat.add_lt_add_right (Shift.labour_ask h.shift hfree (Nat.le_refl 5) hhand) _
      exact ⟨Nat.le_of_lt hlt, fun _ => hlt⟩
  cases hstep with
  | pass millis => exact ⟨Nat.le_refl _, fun h => absurd h Bool.false_ne_true⟩
  | drop u r hhost => exact ⟨Nat.le_refl _, fun h => absurd h Bool.false_ne_true⟩
  | accept u r delay hhost hopen => exact absurd (hopen.symm.trans hclosed) Bool.false_ne_true
  | turnAway u r reports hhost hclosed => exact ⟨Nat.le_refl _, fun h => absurd h Bool.false_ne_true⟩
  | land u hcoming => exact hless (Nat.add_lt_add_right (Shift.labour_land hcoming) _)
  | take u later hwaiting hfree => exact hask hfree
  | rest hwaiting hfree => exact hask hfree
  | begin u hstage hgoing =>
    have hturn := labour_turn hstage (.asking (dispatch u).2)
    exact hless (by simp only [Handling.weight] at hturn; omega)
  | answer u a q next hstage hgoing =>
    have hturn := labour_turn hstage (.asking (next a))
    exact ⟨by simp only [Handling.weight] at hturn; omega, fun h => absurd h Bool.false_ne_true⟩
  | finish u o v hstage hv hfinal =>
    exact hless (labour_settle hclosed hstage (m := .forget u) rfl (by simp) (Nat.lt_add_of_pos_right
      (Nat.succ_pos 1)))
  | fail u o hstage hbelow reports =>
    exact hless (labour_settle hclosed hstage (m := .recordFailure u) rfl (by simp)
      (Nat.lt_succ_self 3))
  | readd u wait hstage hopen => exact absurd (hopen.symm.trans hclosed) Bool.false_ne_true
  | refuse u wait reports hstage hclosed =>
    have hturn := labour_turn hstage .settled
    exact hless (by simp only [Handling.weight] at hturn; omega)
  | abandon u handling hstage hundone hstopped =>
    refine hless (labour_settle hclosed hstage (m := .forget u) rfl (by simp) ?_)
    rcases hundone with rfl | ⟨call, rfl⟩
    · exact (by decide : 2 < 5)
    · exact (by decide : 2 < 4)
  | done u hstage =>
    have hdone := Shift.labour_done (w := Handling.weight) hstage
    refine hless ?_
    show (s.shift.done u).labour Handling.weight + _ < _
    unfold labour
    simp only [Handling.weight] at hdone ⊢
    omega
  | close hphase => exact absurd hphase (h.shift.closed_iff.mp hclosed)
  | hurry hphase hgoing hgrace =>
    refine hless ?_
    unfold labour
    rw [hgoing]
    exact Nat.lt_succ_self _
  | drained hphase hidle =>
    exact hless (Nat.add_lt_add_right (Shift.labour_phase (by rw [hphase]; decide)) _)
  | join hphase hgone =>
    exact hless (Nat.add_lt_add_right (Shift.labour_phase (by rw [hphase]; decide)) _)

/-! ## The end -/

theorem workers_pos (settings : Settings) : 0 < workers settings :=
  Nat.le_max_right _ 1

/-- While the queue is drained, an update in hand leaves something to do, once the time of grace is
over. -/
theorem works_of_hand (h : s.Sound settings) (hclosed : s.queue.closed = true)
    (hgrace : s.graceEnd ≤ s.now) {u : Update} (hhand : s.shift.crew.floor.hands.contains u = true) :
    ∃ m, allows settings s m = true ∧ s.works m = true := by
  rw [← h.shift.staffed u] at hhand
  obtain ⟨handling, hstage⟩ := Option.isSome_iff_exists.mp hhand
  cases handling with
  | fresh =>
    cases hstop : s.hardStop with
    | false => exact ⟨.begin u, by simp [allows, stage?, hstage, hstop], rfl⟩
    | true => exact ⟨.abandon u, by simp [allows, stage?, hstage, hstop], rfl⟩
  | asking call =>
    cases call with
    | done o => exact ⟨.settle u, by simp [allows, stage?, hstage], rfl⟩
    | ask q next =>
      cases hstop : s.hardStop with
      | true => exact ⟨.abandon u, by simp [allows, stage?, hstage, hstop], rfl⟩
      | false =>
        -- the border server may never answer, but patience runs out
        refine ⟨.hurry, ?_, rfl⟩
        have hidle : s.queue.isIdle ≠ true := fun hidle =>
          absurd (hstage.symm.trans (h.shift.stage_of_idle hidle u)) (by simp)
        have hphase : s.shift.phase = .draining := by
          cases hphase : s.shift.phase with
          | running => exact absurd hphase (h.shift.closed_iff.mp hclosed)
          | draining => rfl
          | joining => exact absurd (h.shift.idle (.inl hphase)) hidle
          | ended => exact absurd (h.shift.idle (.inr hphase)) hidle
        simp [allows, hphase, hstop, hgrace]
  | again wait => exact ⟨.readd u, by simp [allows, stage?, hstage], rfl⟩
  | settled => exact ⟨.done u, by simp [allows, stage?, hstage], rfl⟩

/-- **A station that was told to stop has ended when it cannot do anything**, once the time of grace is
over. -/
theorem ended_of_quiet (h : s.Sound settings) (hclosed : s.queue.closed = true)
    (hgrace : s.graceEnd ≤ s.now) (hquiet : (machine settings).Quiet works s) :
    s.shift.phase = .ended := by
  have hidle : ∀ m, allows settings s m = true → s.works m = true → False := fun m ha hworks =>
    absurd ((hquiet m ha).symm.trans hworks) Bool.false_ne_true
  refine h.shift.ended_of_quiet (workers_pos settings) (h.shift.closed_iff.mp hclosed) ?_ ?_ ?_ ?_ ?_
  · refine List.eq_nil_iff_forall_not_mem.mpr fun u hu => hidle (.land u) ?_ rfl
    exact List.contains_iff_mem.mpr hu
  · refine List.eq_nil_iff_forall_not_mem.mpr fun u hu => ?_
    obtain ⟨m, ha, hworks⟩ := works_of_hand h hclosed hgrace (List.contains_iff_mem.mpr hu)
    exact hidle m ha hworks
  · intro hfree
    cases hhand : s.queue.hand with
    | notYet => rfl
    | _ => exact absurd (hidle .ask (by simpa [allows] using hfree) (by simp [works, hhand])) id
  · exact fun hdrain => hidle .drained (by simpa [allows] using hdrain) rfl
  · exact fun hjoin => hidle .join (by simpa [allows] using hjoin) rfl

/-- When a station has ended, it cannot do anything. -/
theorem quiet_of_ended (h : s.Sound settings) (hended : s.shift.phase = .ended) :
    (machine settings).Quiet works s := by
  have hcoming := (h.shift.of_idle (h.shift.idle (.inr hended))).1
  have hstage := h.shift.stage_of_idle (h.shift.idle (.inr hended))
  intro m ha
  cases m with
  | pass millis => rfl
  | schedule u r => rfl
  | answer u a => rfl
  | close => rfl
  | ask => exact absurd ha (by simp [machine, allows, h.shift.free_of_ended hended])
  | land u => exact absurd ha (by simp [machine, allows, hcoming])
  | hurry => exact absurd ha (by simp [machine, allows, hended])
  | drained => exact absurd ha (by simp [machine, allows, hended])
  | join => exact absurd ha (by simp [machine, allows, hended])
  | _ => exact absurd ha (by simp [machine, allows, stage?, hstage])

/-- After the shutdown of the queue its moment stays. -/
theorem closedAt_of_step (h : s.Sound settings) (hclosed : s.queue.closed = true)
    (hstep : Step settings s m t marks) : t.closedAt = s.closedAt := by
  cases hstep with
  | close hphase => exact absurd hphase (h.shift.closed_iff.mp hclosed)
  | _ => rfl

/-- Time does not go back. -/
theorem now_of_step (hstep : Step settings s m t marks) : s.now ≤ t.now := by
  cases hstep with
  | pass millis => exact Nat.le_add_right _ _
  | _ => exact Nat.le_refl _

/-- A run goes on until it is told to stop. -/
theorem running_of_step (hstep : Step settings s m t marks) (hm : m ≠ .close)
    (hrunning : s.shift.phase = .running) : t.shift.phase = .running := by
  cases hstep with
  | close hphase => exact absurd rfl hm
  | drained hphase hidle => exact absurd (hrunning.symm.trans hphase) (by simp)
  | join hphase hgone => exact absurd (hrunning.symm.trans hphase) (by simp)
  | _ => exact hrunning

/-- A run that has ended stays so. -/
theorem ended_of_step (hstep : Step settings s m t marks) (hended : s.shift.phase = .ended) :
    t.shift.phase = .ended := by
  cases hstep with
  | close hphase => exact absurd (hended.symm.trans hphase) (by simp)
  | drained hphase hidle => exact absurd (hended.symm.trans hphase) (by simp)
  | join hphase hgone => rfl
  | _ => exact hended

end Station

end BorderSync
