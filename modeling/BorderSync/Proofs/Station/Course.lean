/-
# BorderSync.Proofs.Station.Course -- the whole way of an update that is accepted once

An update that is accepted once goes through rounds: it is dispatched, fails, and is added again after a
wait that doubles. How often it has failed says in which round it is, so that its whole history can be
written down: some failed rounds, and then one of four endings. Two of them, the abandonment and the
refusal, need a queue that is shut down.
-/
import BorderSync.Proofs.Station.Turn

namespace BorderSync.Station

open Border Event

variable {settings : Settings} {s t : Station} {m : Move} {marks : List Mark}

/-- The largest number of attempts at an update. -/
def attempts (settings : Settings) : Nat :=
  Nat.max 1 settings.outbound.retryCount

/-- **Ending** of the way of an update. -/
inductive Ending where
  | applied
  | givenUp
  /-- It was left undone, before or after its dispatch. -/
  | abandoned (begun : Bool)
  /-- It was added again, and the queue did not take it. -/
  | refused
  deriving DecidableEq, Repr

namespace Ending

/-- What happens at the end, after `k` failed rounds. -/
def fates (k : Nat) : Ending → List Fate
  | .applied => [.dispatched, .judged .applied]
  | .givenUp => [.dispatched, .judged (.givenUp (k + 1))]
  | .abandoned true => [.dispatched, .abandoned]
  | .abandoned false => [.abandoned]
  | .refused => [.dispatched, .judged (.again (k + 1)), .refused]

/-- Failures that are counted after the end. -/
def requeues (k : Nat) : Ending → Nat
  | .refused => k + 1
  | _ => 0

/-- The ending needs a queue that is shut down. -/
def isLate : Ending → Bool
  | .abandoned _ => true
  | .refused => true
  | _ => false

/-- An update is given up in the last round that is allowed, and refused in an earlier one. -/
def Possible (settings : Settings) (k : Nat) : Ending → Prop
  | .givenUp => k + 1 = attempts settings
  | .refused => k + 1 < attempts settings
  | _ => k < attempts settings

end Ending

/-- **Rounds**: `k` failed attempts, each with the wait after it. -/
def rounds (settings : Settings) : (k : Nat) → List Fate
  | 0 => []
  | k + 1 =>
    rounds settings k ++ [.dispatched, .judged (.again (k + 1)), .readded (pause settings k)]

/-- **Course**: what happens to an update that is accepted, fails `k` times, and then ends. -/
def course (settings : Settings) (k : Nat) (e : Ending) : List Fate :=
  .accepted :: rounds settings k ++ e.fates k

/-- Where an update stands. -/
inductive Standing where
  | unknown
  /-- It has failed `k` times, and is to be attempted. -/
  | due (k : Nat)
  /-- It has failed `k` times, and is being attempted. -/
  | tried (k : Nat)
  /-- It has failed once more, and is to be added again. -/
  | failed (k : Nat)
  | ended (k : Nat) (e : Ending)
  deriving DecidableEq, Repr

/-- **Trail**: what has happened to an update that stands here. -/
def trail (settings : Settings) : Standing → List Fate
  | .unknown => []
  | .due k => .accepted :: rounds settings k
  | .tried k => .accepted :: rounds settings k ++ [.dispatched]
  | .failed k => .accepted :: rounds settings k ++ [.dispatched, .judged (.again (k + 1))]
  | .ended k e => course settings k e

/-- **Stands**: the view of an update that stands here. -/
inductive Stands (settings : Settings) (closed : Bool) : View → Standing → Prop
  | unknown : Stands settings closed ⟨0, none, 0⟩ .unknown
  | queued {k : Nat} {stage : Option Handling} (hk : k < attempts settings)
    (hstage : stage = none ∨ stage = some .settled) : Stands settings closed ⟨1, stage, k⟩ (.due k)
  | handed {k : Nat} (hk : k < attempts settings) :
    Stands settings closed ⟨0, some .fresh, k⟩ (.due k)
  | tried {k : Nat} (hk : k < attempts settings) (call : Call Outcome) :
    Stands settings closed ⟨0, some (.asking call), k⟩ (.tried k)
  | failed {k : Nat} (hk : k + 1 < attempts settings) :
    Stands settings closed ⟨0, some (.again (pause settings k)), k + 1⟩ (.failed k)
  | ended {k : Nat} {stage : Option Handling} {e : Ending} (hk : e.Possible settings k)
    (hstage : stage = none ∨ stage = some .settled) (hlate : e.isLate = true → closed = true) :
    Stands settings closed ⟨0, stage, e.requeues k⟩ (.ended k e)

/-! ## One step on the way -/

/-- A queue that is shut down stays so. -/
theorem closed_of_step (hstep : Step settings s m t marks) (hclosed : s.queue.closed = true) :
    t.queue.closed = true := by
  have huse : ∀ m, (s.use m).queue.closed = true := fun m => WorkQueue.Crew.closed_next hclosed m
  cases hstep with
  | take u later hwaiting hfree => exact closed_ask hclosed
  | rest hwaiting hfree => exact closed_ask hclosed
  | accept u r delay hhost hopen => exact huse _
  | land u hcoming => exact huse (.land u)
  | finish u o v hstage hv hfinal => exact huse (.forget u)
  | fail u o hstage hbelow reports => exact huse (.recordFailure u)
  | readd u wait hstage hopen => exact huse (.addAfter u wait)
  | abandon u h hstage hundone hstopped => exact huse (.forget u)
  | done u hstage => exact WorkQueue.Crew.closed_next hclosed (.done u)
  | close hphase => rfl
  | _ => exact hclosed

theorem Stands.close {closed closed' : Bool} {v : View} {st : Standing}
    (h : Stands settings closed v st) (hmore : closed = true → closed' = true) :
    Stands settings closed' v st := by
  cases h with
  | unknown => exact .unknown
  | queued hk hstage => exact .queued hk hstage
  | handed hk => exact .handed hk
  | tried hk call => exact .tried hk call
  | failed hk => exact .failed hk
  | ended hk hstage hlate => exact .ended hk hstage fun h => hmore (hlate h)

/-- Nothing of an update that is accepted once is on its way twice. -/
theorem Stands.load_le {closed : Bool} {v : View} {st : Standing} (h : Stands settings closed v st) :
    v.load ≤ 1 := by
  cases h with
  | queued hk hstage => exact Nat.le_refl 1
  | _ => exact Nat.zero_le 1

/-- An update has ended in a way that is possible after its failed rounds. -/
theorem Stands.possible {closed : Bool} {v : View} {k : Nat} {e : Ending}
    (h : Stands settings closed v (.ended k e)) : e.Possible settings k := by
  cases h with
  | ended hk hstage hlate => exact hk

/-- A verdict that is no failure to be repeated ends the way. -/
theorem Stands.finish {closed : Bool} {k : Nat} (hk : k < attempts settings) {v : Delivery.Verdict}
    (hv : v = .applied ∨ v = .givenUp (k + 1) ∧ settings.outbound.retryCount ≤ k + 1) :
    ∃ st, trail settings st = trail settings (.tried k) ++ [.judged v] ∧
      Stands settings closed ⟨0, some .settled, 0⟩ st := by
  rcases hv with rfl | ⟨rfl, hlimit⟩
  · exact ⟨.ended k .applied, by simp [trail, course, Ending.fates],
      .ended (e := .applied) hk (.inr rfl) (by simp [Ending.isLate])⟩
  · have hlast : k + 1 = attempts settings := by
      have : attempts settings = max 1 settings.outbound.retryCount := rfl
      omega
    exact ⟨.ended k .givenUp, by simp [trail, course, Ending.fates],
      .ended (e := .givenUp) hlast (.inr rfl) (by simp [Ending.isLate])⟩

/-- **A turn leads from standing to standing**, unless the update is accepted once more. -/
theorem Stands.turn {v v' : View} {fs : List Fate} {st : Standing}
    (h : Stands settings s.queue.closed v st) (hturn : Turn settings s v fs v')
    (hstop : s.hardStop = true → s.queue.closed = true) (honce : .accepted ∈ fs → st = .unknown) :
    ∃ st', trail settings st' = trail settings st ++ fs ∧
      Stands settings s.queue.closed v' st' := by
  cases hturn with
  | aside v => exact ⟨st, by simp, h⟩
  | accept hopen hle hle' hpos =>
    -- it was unknown before, so that nothing of it was on its way
    obtain rfl := honce (by simp)
    cases h with
    | unknown =>
      obtain rfl : _ = 1 := Nat.le_antisymm hle' hpos
      exact ⟨.due 0, rfl, .queued (Nat.le_max_left 1 _) (.inl rfl)⟩
  | land hle hpos =>
    have hone := h.load_le
    have hsame : ∀ {n n' : Nat}, n ≤ 1 → n' ≤ n → (0 < n → 0 < n') → n' = n := by omega
    obtain rfl := hsame hone hle hpos
    exact ⟨st, by simp, h⟩
  | take =>
    cases h with
    | queued hk hstage => exact ⟨_, (List.append_nil _).symm, .handed hk⟩
  | begin call hgoing =>
    cases h with
    | queued hk hstage => exact absurd hstage (by simp)
    | handed hk => exact ⟨.tried _, rfl, .tried hk call⟩
    | ended hk hstage hlate => exact absurd hstage (by simp)
  | answer call call' =>
    cases h with
    | queued hk hstage => exact absurd hstage (by simp)
    | tried hk call => exact ⟨_, (List.append_nil _).symm, .tried hk call'⟩
    | ended hk hstage hlate => exact absurd hstage (by simp)
  | finish call v hv =>
    cases h with
    | queued hk hstage => exact absurd hstage (by simp)
    | tried hk call => exact Stands.finish hk hv
    | ended hk hstage hlate => exact absurd hstage (by simp)
  | fail call hbelow =>
    cases h with
    | queued hk hstage => exact absurd hstage (by simp)
    | tried hk call =>
      refine ⟨.failed _, by simp [trail], .failed ?_⟩
      exact Nat.lt_of_lt_of_le hbelow (Nat.le_max_right 1 _)
    | ended hk hstage hlate => exact absurd hstage (by simp)
  | readd wait hopen hle hle' hpos =>
    cases h with
    | queued hk hstage => exact absurd hstage (by simp)
    | failed hk =>
      obtain rfl : _ = 1 := Nat.le_antisymm hle' hpos
      exact ⟨.due _, by simp [trail, rounds], .queued hk (.inr rfl)⟩
    | ended hk hstage hlate => exact absurd hstage (by simp)
  | refuse wait hclosed =>
    cases h with
    | queued hk hstage => exact absurd hstage (by simp)
    | failed hk =>
      exact ⟨.ended _ .refused, by simp [trail, course, Ending.fates],
        .ended (e := .refused) hk (.inr rfl) fun _ => hclosed⟩
    | ended hk hstage hlate => exact absurd hstage (by simp)
  | abandon handling hundone hstopped =>
    cases h with
    | queued hk hstage => exact absurd hundone (by rcases hstage with h | h <;> simp_all)
    | handed hk =>
      exact ⟨.ended _ (.abandoned false), by simp [trail, course, Ending.fates],
        .ended (e := .abandoned false) hk (.inr rfl) fun _ => hstop hstopped⟩
    | tried hk call =>
      exact ⟨.ended _ (.abandoned true), by simp [trail, course, Ending.fates],
        .ended (e := .abandoned true) hk (.inr rfl) fun _ => hstop hstopped⟩
    | failed hk => exact absurd hundone (by simp)
    | ended hk hstage hlate => exact absurd hundone (by rcases hstage with h | h <;> simp_all)
  | done =>
    refine ⟨st, by simp, ?_⟩
    cases h with
    | queued hk hstage => exact .queued hk (.inl rfl)
    | ended hk hstage hlate => exact .ended hk (.inl rfl) hlate

end BorderSync.Station
