/-
# BorderSync.Proofs.Relay.Return -- that both runs of a relay come to their end

When the queue of changes is shut down, every move of a timer, of a consumer or of the run in front lowers
the labour that is left on this side: what is there to be handled, and then the copies that are not yet
scheduled. A translation makes copies, so the first counts before the second. When no such move is
possible, the run has ended. The station comes after it, and its end is told in `Station.Return`.
-/
import BorderSync.Proofs.Relay.Passage

namespace BorderSync

open Event

namespace Planning

/-- How much there is to do with a change at this stage. -/
def weight : Planning → Nat
  | .fresh => 5
  | .sending _ => 4
  | .settled => 2

/-- Number of copies that are to be scheduled. -/
def unsent : Planning → Nat
  | .sending copies => copies.length
  | _ => 0

end Planning

namespace Relay

variable {settings : Settings} {s t : Relay} {m : Move} {marks : List Mark}

/-! ## The side of the changes -/

/-- **Consumes**: the move is one of a timer, of a consumer or of the run in front, and gets something
done. -/
def consumes (s : Relay) : Move → Bool
  | .use (.land _) => true
  | .ask =>
    match s.queue.hand with
    | .notYet => false
    | _ => true
  | .plan _ _ => true
  | .send _ _ => true
  | .forget _ => true
  | .done _ => true
  | .drained => true
  | .join => true
  | _ => false

/-- **Labour** that is left: what is to be handled, and the copies that are to be scheduled. -/
def labour (s : Relay) : Nat × Nat :=
  (s.shift.labour Planning.weight, s.shift.desks.weight Planning.unsent)

/-- Less labour. -/
def Less : Nat × Nat → Nat × Nat → Prop :=
  Prod.Lex (· < ·) (· < ·)

theorem less_wf : WellFounded Less :=
  (Prod.lex Nat.lt_wfRel Nat.lt_wfRel).wf

theorem less_of_lt (h : t.shift.labour Planning.weight < s.shift.labour Planning.weight) :
    Less t.labour s.labour :=
  .left _ _ h

/-- Labour that does not grow, with fewer copies that are to be scheduled, is less. -/
theorem less_of_le (h : t.shift.labour Planning.weight ≤ s.shift.labour Planning.weight)
    (hunsent : t.shift.desks.weight Planning.unsent < s.shift.desks.weight Planning.unsent) :
    Less t.labour s.labour := by
  rcases Nat.lt_or_eq_of_le h with hlt | heq
  · exact less_of_lt hlt
  · unfold labour
    rw [heq]
    exact .right _ hunsent

/-- **A consumer that gets something done lowers the labour, and nothing raises it**, once the queue is
shut down. -/
theorem labour_of_step (h : s.Sound settings) (hclosed : s.queue.closed = true)
    (hstep : Step settings s m t marks) :
    (t.labour = s.labour ∨ Less t.labour s.labour) ∧
      (s.consumes m = true → Less t.labour s.labour) := by
  have hless : Less t.labour s.labour → (t.labour = s.labour ∨ Less t.labour s.labour) ∧
      (s.consumes m = true → Less t.labour s.labour) := fun h => ⟨.inr h, fun _ => h⟩
  cases hstep with
  | use m hm ha =>
    by_cases hland : ∃ c, m = .land c
    · obtain ⟨c, rfl⟩ := hland
      exact hless (less_of_lt (Shift.labour_land ha))
    · have hlabour := Shift.labour_use (w := Planning.weight) hclosed hm fun c hc => hland ⟨c, hc⟩
      refine ⟨.inl (congrArg (·, _) hlabour), fun hconsumes => ?_⟩
      cases m with
      | land c => exact absurd ⟨c, rfl⟩ hland
      | _ => exact absurd hconsumes Bool.false_ne_true
  | watch cache => exact ⟨.inl rfl, fun h => absurd h Bool.false_ne_true⟩
  | ask hfree =>
    by_cases hhand : s.queue.hand = .notYet
    · rw [Shift.ask_of_notYet hhand]
      exact ⟨.inl rfl, fun hconsumes => absurd hconsumes (by simp [consumes, hhand])⟩
    · exact hless (less_of_lt (Shift.labour_ask h.shift hfree (Nat.le_refl 5) hhand))
  | plan c cache updates tokens reports hstage hplan =>
    have hturn := Shift.labour_turn (w := Planning.weight) hstage
      (.sending (Delivery.copies settings.hosts updates tokens))
    exact hless (less_of_lt (by simp only [Planning.weight] at hturn ⊢; omega))
  | send c r w rest t marks hstage hstep =>
    have hturn := Shift.labour_turn (w := Planning.weight) hstage (.sending rest)
    have hunsent := Table.weight_erase Planning.unsent hstage
    refine hless (less_of_le (by simp only [Planning.weight] at hturn ⊢; omega) ?_)
    show (s.shift.desks.insert c (.sending rest)).weight Planning.unsent < _
    rw [Table.weight_insert]
    simp only [Planning.unsent, List.length_cons] at hunsent ⊢
    omega
  | forget c hstage =>
    have huse := Shift.labour_use (w := Planning.weight) hclosed (m := .forget c) rfl (by simp)
    have hturn := Shift.labour_turn (s := s.shift.use (.forget c)) (w := Planning.weight) hstage .settled
    exact hless (less_of_lt (by simp only [Planning.weight] at hturn huse ⊢; omega))
  | done c hstage =>
    have hdone := Shift.labour_done (w := Planning.weight) hstage
    exact hless (less_of_lt (by simp only [Planning.weight] at hdone ⊢; omega))
  | close hphase => exact absurd hphase (h.shift.closed_iff.mp hclosed)
  | drained hphase hidle => exact hless (less_of_lt (Shift.labour_phase (by rw [hphase]; decide)))
  | join hphase hgone => exact hless (less_of_lt (Shift.labour_phase (by rw [hphase]; decide)))
  | station m t marks hstep hclose => exact ⟨.inl rfl, fun h => absurd h Bool.false_ne_true⟩

theorem consumers_pos (settings : Settings) : 0 < consumers settings :=
  Nat.le_max_right _ 1

/-- A change in hand leaves a consumer something to do. -/
theorem consumes_of_hand (h : s.Sound settings) {c : Change}
    (hhand : s.shift.crew.floor.hands.contains c = true) :
    ∃ m, allows settings s m = true ∧ s.consumes m = true := by
  rw [← h.shift.staffed c] at hhand
  obtain ⟨planning, hstage⟩ := Option.isSome_iff_exists.mp hhand
  cases planning with
  | fresh => exact ⟨.plan c fun _ _ => "", by simp [allows, stage?, hstage], rfl⟩
  | sending copies =>
    cases copies with
    | nil => exact ⟨.forget c, by simp [allows, stage?, hstage], rfl⟩
    | cons w rest => exact ⟨.send c 0, by simp [allows, stage?, hstage], rfl⟩
  | settled => exact ⟨.done c, by simp [allows, stage?, hstage], rfl⟩

/-- **A run in front that was told to stop has ended when nobody on its side can do anything.** -/
theorem ended_of_quiet (h : s.Sound settings) (hphase : s.shift.phase ≠ .running)
    (hquiet : (machine settings).Quiet consumes s) : s.shift.phase = .ended := by
  have hidle : ∀ m, allows settings s m = true → s.consumes m = true → False := fun m ha hconsumes =>
    absurd ((hquiet m ha).symm.trans hconsumes) Bool.false_ne_true
  refine h.shift.ended_of_quiet (consumers_pos settings) hphase ?_ ?_ ?_ ?_ ?_
  · refine List.eq_nil_iff_forall_not_mem.mpr fun c hc => hidle (.use (.land c)) ?_ rfl
    exact List.contains_iff_exists_mem_beq.mpr ⟨c, hc, BEq.rfl⟩
  · refine List.eq_nil_iff_forall_not_mem.mpr fun c hc => ?_
    obtain ⟨m, ha, hconsumes⟩ := consumes_of_hand h (List.contains_iff_exists_mem_beq.mpr ⟨c, hc, BEq.rfl⟩)
    exact hidle m ha hconsumes
  · intro hfree
    cases hhand : s.queue.hand with
    | notYet => rfl
    | _ => exact absurd (hidle .ask (by simpa [allows] using hfree) (by simp [consumes, hhand])) id
  · exact fun hdrain => hidle .drained (by simpa [allows] using hdrain) rfl
  · exact fun hjoin => hidle .join (by simpa [allows] using hjoin) rfl

/-- When the run in front has ended, nobody on its side can do anything. -/
theorem quiet_of_ended (h : s.Sound settings) (hended : s.shift.phase = .ended) :
    (machine settings).Quiet consumes s := by
  have hcoming := (h.shift.of_idle (h.shift.idle (.inr hended))).1
  have hstage := h.shift.stage_of_idle (h.shift.idle (.inr hended))
  intro m ha
  cases m with
  | use m =>
    cases m with
    | land c => exact absurd ha (by simp [machine, allows, WorkQueue.Floor.allows, hcoming])
    | _ => rfl
  | watch cache => rfl
  | close => rfl
  | station m => rfl
  | ask => exact absurd ha (by simp [machine, allows, h.shift.free_of_ended hended])
  | drained => exact absurd ha (by simp [machine, allows, hended])
  | join => exact absurd ha (by simp [machine, allows, hended])
  | _ => exact absurd ha (by simp [machine, allows, stage?, hstage])

/-- A run in front that was told to stop is not told otherwise. -/
theorem stopping_of_step (hstep : Step settings s m t marks) (hphase : s.shift.phase ≠ .running) :
    t.shift.phase ≠ .running := by
  cases hstep with
  | close hrunning => exact absurd hrunning hphase
  | drained hphase hidle => simp [Shift.drained]
  | join hphase hgone => simp [Shift.join]
  | _ => exact hphase

/-- A run in front that has ended stays so. -/
theorem ended_of_step (hstep : Step settings s m t marks) (hended : s.shift.phase = .ended) :
    t.shift.phase = .ended := by
  cases hstep with
  | close hphase => exact absurd (hended.symm.trans hphase) (by simp)
  | drained hphase hidle => exact absurd (hended.symm.trans hphase) (by simp)
  | join hphase hgone => rfl
  | _ => exact hended

/-! ## The side of the station -/

/-- **Carries**: the move is one of the station that gets something done. -/
def carries (s : Relay) : Move → Bool
  | .station m => s.station.works m
  | _ => false

/-- What every step of the station keeps, every step of a relay keeps. -/
theorem station_keeps {P : Station → Prop} (hstep : Step settings s m t marks) (h : P s.station)
    (keeps : ∀ {m t marks}, s.station.Step settings m t marks → P t) : P t.station := by
  cases hstep with
  | send c r w rest t marks hstage hstep => exact keeps hstep
  | station m t marks hstep hclose => exact keeps hstep
  | _ => exact h

/-- The labour of the station falls with its work, and nothing raises it, once it is told to stop. -/
theorem station_labour_of_step (h : s.Sound settings) (hclosed : s.station.queue.closed = true)
    (hstep : Step settings s m t marks) :
    t.station.labour ≤ s.station.labour ∧
      (s.carries m = true → t.station.labour < s.station.labour) := by
  refine ⟨station_keeps (P := fun t => t.labour ≤ s.station.labour) hstep (Nat.le_refl _)
    fun hstep => (Station.labour_of_step h.station hclosed hstep).1, fun hcarries => ?_⟩
  cases hstep with
  | station m t marks hstep hclose => exact (Station.labour_of_step h.station hclosed hstep).2 hcarries
  | _ => exact absurd hcarries Bool.false_ne_true

/-- When the station cannot do anything in a relay, it cannot do anything. -/
theorem station_quiet (hquiet : (machine settings).Quiet carries s) :
    (Station.machine settings).Quiet Station.works s.station := by
  intro m ha
  by_cases hclose : m = .close
  · subst hclose
    rfl
  · refine hquiet (.station m) (Bool.and_eq_true_iff.mpr ⟨ha, ?_⟩)
    cases m with
    | close => exact absurd rfl hclose
    | _ => rfl

/-- When the station has ended, it cannot do anything in a relay. -/
theorem station_quiet_of_ended (h : s.Sound settings) (hended : s.station.shift.phase = .ended) :
    (machine settings).Quiet carries s := by
  intro m ha
  cases m with
  | station m => exact Station.quiet_of_ended h.station hended m (Bool.and_eq_true_iff.mp ha).1
  | _ => rfl

end Relay

end BorderSync
