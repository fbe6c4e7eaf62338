/-
# BorderSync.Proofs.Relay.Lasting -- that changes are relayed and both runs return

What is asked of a run without end is little. Again and again a consumer that can do something does it,
and so does a worker of the station; time goes on; and both runs are told to stop, first the one in front.
Producers, border servers and the watch may do anything. Then both runs return, and by that time every
change that was accepted has been relayed.
-/
import BorderSync.Proofs.Relay.Return

namespace BorderSync.Relay

open Event Machine

variable {settings : Settings} {cache : Cluster.Cache} {s : Relay} {f : Nat → Move}

/-- The state after the first `i` moves of a run without end. -/
abbrev after (settings : Settings) (cache : Cluster.Cache) (f : Nat → Move) (i : Nat) : Relay :=
  (machine settings).after (start settings cache) f i

/-- **Lasting**: a run without end in which neither side is kept from its work for ever, time goes on,
and the run in front is told to stop, and the station after the end of that run. -/
structure Lasting (settings : Settings) (cache : Cluster.Cache) (f : Nat → Move) : Prop where
  endless : (machine settings).Endless (start settings cache) f
  consuming : (machine settings).Fair (start settings cache) f consumes
  carrying : (machine settings).Fair (start settings cache) f carries
  timely : ∀ n, ∃ i, n ≤ (after settings cache f i).station.now
  cancelled : ∃ i, (after settings cache f i).shift.phase ≠ .running
  stopped : (∃ i, (after settings cache f i).shift.phase = .ended) →
    ∃ i, (after settings cache f i).station.shift.phase ≠ .running

/-- **Returned**: both runs have ended, and both queues are idle. -/
structure Returned (s : Relay) : Prop where
  front : s.shift.phase = .ended
  station : s.station.shift.phase = .ended
  front_idle : s.queue.isIdle = true
  station_idle : s.station.queue.isIdle = true

theorem returned_of_ended (h : s.Sound settings) (hfront : s.shift.phase = .ended)
    (hstation : s.station.shift.phase = .ended) : s.Returned :=
  ⟨hfront, hstation, h.shift.idle (.inr hfront), h.station.shift.idle (.inr hstation)⟩

namespace Lasting

variable (h : Lasting settings cache f)

include h

theorem step (i : Nat) : Step settings (after settings cache f i) (f i)
    (after settings cache f (i + 1)) (act settings (after settings cache f i) (f i)).2 :=
  step_of_allows (h.endless i)

theorem sound (i : Nat) : (after settings cache f i).Sound settings :=
  h.endless.keeps (P := Sound settings) (i := 0) (fun _ m hs ha => hs.next m ha)
    (Sound.start settings cache) (Nat.zero_le i)

/-- The run in front ends. -/
theorem front_ends : ∃ i, ∀ j, i ≤ j → (after settings cache f j).shift.phase = .ended := by
  obtain ⟨i, hi⟩ := h.cancelled
  have hstopping : ∀ j, i ≤ j → (after settings cache f j).shift.phase ≠ .running := fun j hij =>
    h.endless.keeps (P := fun s => s.shift.phase ≠ .running)
      (fun _ _ hs ha => stopping_of_step (step_of_allows ha) hs) hi hij
  have hlabour := fun j hij =>
    labour_of_step (h.sound j) ((h.sound j).shift.closed_iff.mpr (hstopping j hij)) (h.step j)
  obtain ⟨j, hij, hquiet⟩ := Endless.exhausts less_wf labour h.consuming (i := i)
    (fun j hij => (hlabour j hij).1) fun j hij => (hlabour j hij).2
  exact ⟨j, fun k hjk => h.endless.keeps (P := fun s => s.shift.phase = .ended)
    (fun _ _ hs ha => ended_of_step (step_of_allows ha) hs)
    (ended_of_quiet (h.sound j) (hstopping j hij) hquiet) hjk⟩

/-- Once the station is told to stop, its queue is shut down, and the moment of that stays. -/
theorem station_closed {i : Nat} (hi : (after settings cache f i).station.shift.phase ≠ .running) {j : Nat}
    (hij : i ≤ j) : (after settings cache f j).station.queue.closed = true ∧
      (after settings cache f j).station.closedAt = (after settings cache f i).station.closedAt := by
  have hkept := h.endless.keeps (P := fun s => s.Sound settings ∧ s.station.queue.closed = true ∧
      s.station.closedAt = (after settings cache f i).station.closedAt)
    (fun s m hs ha => ?_) ⟨h.sound i, (h.sound i).station.shift.closed_iff.mpr hi, rfl⟩ hij
  · exact hkept.2
  · obtain ⟨hsound, hclosed, hclosedAt⟩ := hs
    have hstep := step_of_allows ha
    refine ⟨hsound.next m ha, ?_, ?_⟩
    · exact station_keeps (P := fun t => t.queue.closed = true) hstep hclosed
        fun hstep => Station.closed_of_step hstep hclosed
    · exact station_keeps (P := fun t => t.closedAt = _) hstep hclosedAt
        fun hstep => (Station.closedAt_of_step hsound.station hclosed hstep).trans hclosedAt

/-- At some moment the time of grace is over for good. -/
theorem grace_ends {i : Nat} (hi : (after settings cache f i).station.shift.phase ≠ .running) :
    ∃ j, i ≤ j ∧ ∀ k, j ≤ k →
      (after settings cache f k).station.graceEnd ≤ (after settings cache f k).station.now := by
  obtain ⟨j, hj⟩ := h.timely (after settings cache f i).station.graceEnd
  refine ⟨Nat.max i j, Nat.le_max_left i j, fun k hk => ?_⟩
  have hnow := h.endless.keeps (P := fun s => (after settings cache f i).station.graceEnd ≤ s.station.now)
    (fun s m hs ha => station_keeps (P := fun t => _ ≤ t.now) (step_of_allows ha) hs
      fun hstep => Nat.le_trans hs (Station.now_of_step hstep))
    hj (Nat.le_trans (Nat.le_max_right i j) hk)
  unfold Station.graceEnd at hnow ⊢
  rwa [(h.station_closed hi (Nat.le_trans (Nat.le_max_left i j) hk)).2]

/-- The station ends. -/
theorem station_ends : ∃ i, ∀ j, i ≤ j → (after settings cache f j).station.shift.phase = .ended := by
  obtain ⟨i₀, hfront⟩ := h.front_ends
  obtain ⟨i, hi⟩ := h.stopped ⟨i₀, hfront i₀ (Nat.le_refl i₀)⟩
  obtain ⟨j, hij, hgrace⟩ := h.grace_ends hi
  have hlabour := fun k (hjk : j ≤ k) => station_labour_of_step (h.sound k)
    (h.station_closed hi (Nat.le_trans hij hjk)).1 (h.step k)
  obtain ⟨k, hjk, hquiet⟩ := Endless.exhausts Nat.lt_wfRel.wf (fun s : Relay => s.station.labour)
    h.carrying (i := j) (fun k hjk => (Nat.lt_or_eq_of_le (hlabour k hjk).1).symm)
    fun k hjk => (hlabour k hjk).2
  have hended := Station.ended_of_quiet (h.sound k).station
    (h.station_closed hi (Nat.le_trans hij hjk)).1 (hgrace k hjk) (station_quiet hquiet)
  exact ⟨k, fun l hkl => h.endless.keeps (P := fun s => s.station.shift.phase = .ended)
    (fun s m hs ha => station_keeps (P := fun t => t.shift.phase = .ended) (step_of_allows ha) hs
      fun hstep => Station.ended_of_step hstep hs) hended hkl⟩

end Lasting

/-- **Changes are relayed, and both runs return.** Whenever both runs have ended, every change that was
accepted was translated afterwards, and every copy that this has yielded was accepted by the station and
was dispatched or, after the time of grace only, abandoned. And both runs end with idle queues. -/
theorem run_relays (settings : Settings) (cache : Cluster.Cache) (hfits : settings.Fits) :
    (∀ ms, (machine settings).legal (start settings cache) ms = true →
        ((machine settings).run (start settings cache) ms).shift.phase = .ended →
          ((machine settings).run (start settings cache) ms).station.shift.phase = .ended →
            Relayed settings (history settings (start settings cache) ms)) ∧
      ∀ f, Lasting settings cache f → ∃ i, ∀ j, i ≤ j → (after settings cache f j).Returned := by
  refine ⟨fun ms hl hfront hstation => relayed_of_ended hfits hl hfront hstation, fun f h => ?_⟩
  obtain ⟨i, hfront⟩ := h.front_ends
  obtain ⟨j, hstation⟩ := h.station_ends
  refine ⟨Nat.max i j, fun k hk => returned_of_ended (h.sound k) (hfront k ?_) (hstation k ?_)⟩
  · exact Nat.le_trans (Nat.le_max_left i j) hk
  · exact Nat.le_trans (Nat.le_max_right i j) hk

/-! ## A run that lasts -/

section Going

variable {ms : List Move} (hl : (machine settings).legal (start settings cache) ms = true)
  (hfront : ((machine settings).run (start settings cache) ms).shift.phase = .ended)
  (hstation : ((machine settings).run (start settings cache) ms).station.shift.phase = .ended)

include hl hfront hstation

/-- When both runs have ended, nothing but time goes on. -/
theorem ended_thenEver {i : Nat} (hi : ms.length ≤ i) :
    (after settings cache (thenEver ms (.station (.pass 1))) i).Sound settings ∧
      (after settings cache (thenEver ms (.station (.pass 1))) i).shift.phase = .ended ∧
        (after settings cache (thenEver ms (.station (.pass 1))) i).station.shift.phase = .ended := by
  refine Endless.keeps ((machine settings).endless_thenEver hl fun _ => rfl)
    (P := fun s => s.Sound settings ∧ s.shift.phase = .ended ∧ s.station.shift.phase = .ended)
    (fun s m hs ha => ?_) ?_ hi
  · obtain ⟨hsound, hfront, hstation⟩ := hs
    have hstep := step_of_allows ha
    exact ⟨hsound.step hstep, ended_of_step hstep hfront,
      station_keeps (P := fun t => t.shift.phase = .ended) hstep hstation
        fun hstep => Station.ended_of_step hstep hstation⟩
  · rw [(machine settings).after_thenEver]
    exact ⟨(Sound.start settings cache).run hl, hfront, hstation⟩

omit hl hfront hstation in
/-- One millisecond passes with each move. -/
theorem now_thenEver (n : Nat) :
    n ≤ (after settings cache (thenEver ms (.station (.pass 1))) (ms.length + n)).station.now := by
  induction n with
  | zero => exact Nat.zero_le _
  | succ n ih =>
    rw [← Nat.add_assoc, after, Machine.after_succ, thenEver_of_le (Nat.le_add_right _ n)]
    exact Nat.succ_le_succ ih

/-- A finite run in which both runs have ended can go on for ever. -/
theorem lasting_of_ended : Lasting settings cache (thenEver ms (.station (.pass 1))) := by
  have hlast := ended_thenEver hl hfront hstation (Nat.le_refl _)
  refine ⟨(machine settings).endless_thenEver hl fun _ => rfl, fun i => ?_, fun i => ?_,
    fun n => ⟨_, now_thenEver n⟩, ⟨ms.length, ?_⟩, fun _ => ⟨ms.length, ?_⟩⟩
  · obtain ⟨hsound, hfront, -⟩ := ended_thenEver hl hfront hstation (Nat.le_max_right i ms.length)
    exact ⟨Nat.max i ms.length, Nat.le_max_left _ _, .inr (quiet_of_ended hsound hfront)⟩
  · obtain ⟨hsound, -, hstation⟩ := ended_thenEver hl hfront hstation (Nat.le_max_right i ms.length)
    exact ⟨Nat.max i ms.length, Nat.le_max_left _ _, .inr (station_quiet_of_ended hsound hstation)⟩
  · rw [hlast.2.1]
    simp
  · rw [hlast.2.2]
    simp

end Going

/-- Settings with one border server. -/
def bar : Settings :=
  { hosts := ["http://lb"] }

/-- A service with one port that border servers pass on. -/
def brewed : Change :=
  { kind := .created
    service :=
      { name := some "web", version := some "1", annotations := [("nginxinc.io/nlk-tea", "http")]
        ports := [⟨some "nlk-tea", some 30080⟩] }
    previous := none
    nodes := ["10.0.0.1"] }

/-- The copy of its only update. -/
def poured : Update :=
  Delivery.copyFor (fun _ _ => "") (0, "http://lb")
    (0, { kind := .created, upstream := "tea", clientType := "http", servers := ["10.0.0.1:30080"] })

/-- A worker attempts the copy: the upstream holds nothing yet, and the post of its server has this status. -/
def attempted (status : Nat) : List Station.Move :=
  [.land poured, .ask, .begin poured, .answer poured (.ok ⟨200, (Json.Value.array []).render⟩),
    .answer poured (.ok ⟨status, []⟩), .settle poured]

/-- The first attempt at the copy is refused, and the station is told to stop before the second one. -/
def resent : List Station.Move :=
  [.pass 10] ++ attempted 500 ++ [.readd poured, .done poured, .close, .pass 500] ++ attempted 201 ++
    [.done poured, .ask, .drained, .join]

/-- The run in front is told to stop while a consumer has the change in hand. -/
def serving : List Move :=
  [.use (.add brewed), .ask, .plan brewed fun _ _ => "", .close, .send brewed 0, .forget brewed,
    .done brewed, .ask, .drained, .join] ++ resent.map .station

/-- A copy that is scheduled during one shutdown, and refused once, is carried out during the other, and both
runs return. -/
theorem run_relays_serving :
    ((machine bar).legal (start bar .empty) serving = true ∧
        ((machine bar).run (start bar .empty) serving).shift.phase = .ended ∧
          ((machine bar).run (start bar .empty) serving).station.shift.phase = .ended ∧
            Relayed bar (history bar (start bar .empty) serving)) ∧
      (Station.fates poured (stationMarks (history bar (start bar .empty) serving)) =
          [.accepted, .dispatched, .judged (.again 1), .readded (.ofMillis 500), .dispatched,
            .judged .applied] ∧
        (Station.requestsFor poured (stationMarks (history bar (start bar .empty) serving))).map
            Border.Request.method = [.get, .post, .get, .post]) ∧
        Lasting bar .empty (thenEver serving (.station (.pass 1))) ∧
          ∃ i, ∀ j, i ≤ j → (after bar .empty (thenEver serving (.station (.pass 1))) j).Returned := by
  have hl : (machine bar).legal (start bar .empty) serving = true := by decide +kernel
  have hfront : ((machine bar).run (start bar .empty) serving).shift.phase = .ended := by decide +kernel
  have hstation : ((machine bar).run (start bar .empty) serving).station.shift.phase = .ended := by
    decide +kernel
  have hlasting := lasting_of_ended hl hfront hstation
  obtain ⟨hrelays, hreturns⟩ := run_relays bar .empty ⟨by decide, by decide⟩
  exact ⟨⟨hl, hfront, hstation, hrelays serving hl hfront hstation⟩,
    ⟨by decide +kernel, by decide +kernel⟩, hlasting, hreturns _ hlasting⟩

end BorderSync.Relay
