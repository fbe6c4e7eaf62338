/-
# BorderSync.Proofs.Relay.Passage -- from an accepted change to the attempts at its copies

A change passes three places on its way. First it is **awaited**, until a consumer has translated it; then
its copies are **pending** in the hands of that consumer, until they are scheduled; then they are due in the
station. What is at one of these places stays there until a mark says that it has moved on, and when both
runs have ended, nothing is left at any of them.
-/
import BorderSync.Proofs.Delivery.Copies
import BorderSync.Proofs.Relay.Basic
import BorderSync.Proofs.Station.Passage

namespace BorderSync.Relay

open Event

variable {settings : Settings} {s t : Relay} {c : Change} {w : Update} {m : Move} {ms : List Move}
  {marks before after : List Mark}

/-! ## Awaited changes -/

/-- **Awaited**: a change is on its way to a consumer, or a consumer has not translated it yet. -/
def Awaited (c : Change) (s : Relay) : Prop :=
  0 < s.shift.crew.floor.load (c == ·) ∨ s.stage? c = some .fresh

/-- The mark of a translation of this change, or of an equal one: it yields what is planned with the cache
of that moment. -/
def Mark.translates (c : Change) : Mark → Prop
  | .translated c' updates _ _ => (c == c') = true ∧ ∃ cache, updates = Outbound.planned cache c'
  | _ => False

/-- A change is awaited until it is translated. -/
theorem awaited_of_step (h : s.Sound settings) (hstep : Step settings s m t marks)
    (hawaited : s.Awaited c) : t.Awaited c ∨ ∃ k ∈ marks, k.translates c := by
  cases hstep with
  | use m hm ha => exact .inl (hawaited.imp_left (Shift.load_use (coarse_beq c) hm ha))
  | watch cache => exact .inl hawaited
  | ask hfree => exact .inl (Shift.due_ask h.shift hawaited)
  | plan c' cache updates tokens reports hstage hplan =>
    by_cases hc : c == c'
    · exact .inr ⟨_, List.mem_singleton_self _, hc, s.cache, hplan⟩
    · refine .inl (hawaited.imp_right fun hfresh => ?_)
      show (s.shift.desks.insert c' _).get? c = _
      rw [Table.get?_insert, if_neg hc]
      exact hfresh
  | send c' r w rest t marks hstage hstep =>
    exact .inl (hawaited.imp_right fun hfresh => Shift.stage_turn hstage hfresh (by simp) _)
  | forget c' hstage =>
    refine .inl (hawaited.imp (Shift.load_use (m := .forget c') (coarse_beq c) rfl rfl) fun hfresh => ?_)
    exact Shift.stage_turn (s := s.shift.use (.forget c')) hstage hfresh (by simp) _
  | done c' hstage =>
    exact .inl (hawaited.imp_right fun hfresh => Shift.stage_done hstage hfresh (by simp))
  | close hphase => exact .inl hawaited
  | drained hphase hidle => exact .inl hawaited
  | join hphase hgone => exact .inl hawaited
  | station m t marks hstep hclose => exact .inl hawaited

/-- A change that is accepted is awaited. -/
theorem awaited_of_accepted (hstep : Step settings s m t marks) (hmem : .accepted c ∈ marks) :
    t.Awaited c := by
  cases hstep with
  | use m hm ha =>
    unfold useMarks at hmem
    split at hmem
    · rename_i c' hbrings
      split at hmem
      · exact absurd hmem (by simp)
      · rename_i hopen
        obtain rfl : c = c' := by simpa using hmem
        exact .inl (Shift.load_brings (coarse_beq c) (Bool.eq_false_iff.mpr hopen) hbrings BEq.rfl)
    · exact absurd hmem List.not_mem_nil
  | _ => exact absurd hmem (by simp)

/-! ## Pending copies -/

/-- **Pending**: a consumer is to schedule this copy. -/
def Pending (w : Update) (s : Relay) : Prop :=
  ∃ c copies, s.stage? c = some (.sending copies) ∧ w ∈ copies

/-- While a change is in hand, the station takes copies. -/
theorem isOpen_of_stage (h : s.Sound settings) {stage : Planning} (hstage : s.stage? c = some stage) :
    s.station.queue.closed = false := by
  refine h.station.shift.isOpen (h.gate fun hended => ?_)
  have hnone := h.shift.stage_of_idle (h.shift.idle (.inr hended)) c
  exact absurd (hstage.symm.trans hnone) (by simp)

/-- A copy for a host is pending until the station has accepted it. -/
theorem pending_of_step (h : s.Sound settings) (hhost : w.host ≠ "")
    (hstep : Step settings s m t marks) (hpending : s.Pending w) :
    t.Pending w ∨ ∃ k ∈ marks, k = .station (.accepted w) := by
  obtain ⟨c, copies, hc, hw⟩ := hpending
  cases hstep with
  | use m hm ha => exact .inl ⟨c, copies, hc, hw⟩
  | watch cache => exact .inl ⟨c, copies, hc, hw⟩
  | ask hfree => exact .inl ⟨c, copies, Shift.stage_ask h.shift hc _, hw⟩
  | plan c' cache updates tokens reports hstage hplan =>
    exact .inl ⟨c, copies, Shift.stage_turn hstage hc (by simp) _, hw⟩
  | send c' r w' rest t marks hstage hstep =>
    by_cases hsame : c == c'
    · -- the copies of this very change are sent, and this one is the next or among the others
      rw [show s.stage? c = s.stage? c' from s.shift.desks.get?_congr hsame, hstage] at hc
      obtain rfl : w' :: rest = copies := by simpa using hc
      rcases List.mem_cons.mp hw with rfl | hw
      · refine .inr ⟨_, ?_, rfl⟩
        cases hstep with
        | drop u r hdropped => exact absurd hdropped hhost
        | accept u r delay hhost hopen => exact List.mem_singleton_self _
        | turnAway u r reports hhost hclosed =>
          exact absurd ((isOpen_of_stage h hstage).symm.trans hclosed) Bool.false_ne_true
      · refine .inl ⟨c, rest, ?_, hw⟩
        show (s.shift.desks.insert c' _).get? c = _
        rw [Table.get?_insert, if_pos hsame]
    · refine .inl ⟨c, copies, ?_, hw⟩
      show (s.shift.desks.insert c' _).get? c = _
      rw [Table.get?_insert, if_neg hsame]
      exact hc
  | forget c' hstage =>
    have hne : Planning.sending copies ≠ .sending [] := by
      rintro ⟨⟩
      exact absurd hw List.not_mem_nil
    exact .inl ⟨c, copies, Shift.stage_turn (s := s.shift.use (.forget c')) hstage hc hne _, hw⟩
  | done c' hstage => exact .inl ⟨c, copies, Shift.stage_done hstage hc (by simp), hw⟩
  | close hphase => exact .inl ⟨c, copies, hc, hw⟩
  | drained hphase hidle => exact .inl ⟨c, copies, hc, hw⟩
  | join hphase hgone => exact .inl ⟨c, copies, hc, hw⟩
  | station m t marks hstep hclose => exact .inl ⟨c, copies, hc, hw⟩

/-- The copies that a translation yields are pending. -/
theorem pending_of_translated {updates : List Update} {tokens : Nat → Nat → String}
    {reports : List Report} (hstep : Step settings s m t marks)
    (hmem : .translated c updates tokens reports ∈ marks)
    (hw : w ∈ Delivery.copies settings.hosts updates tokens) : t.Pending w := by
  cases hstep with
  | plan c' cache updates' tokens' reports' hstage hplan =>
    simp only [List.mem_singleton, Mark.translated.injEq] at hmem
    obtain ⟨rfl, rfl, rfl, rfl⟩ := hmem
    refine ⟨c, _, ?_, hw⟩
    show (s.shift.desks.insert c _).get? c = _
    rw [Table.get?_insert, if_pos BEq.rfl]
  | use m hm ha =>
    unfold useMarks at hmem
    split at hmem
    · split at hmem <;> exact absurd hmem (by simp)
    · exact absurd hmem List.not_mem_nil
  | _ => exact absurd hmem (by simp)

/-! ## The station in a relay -/

/-- What the station has done. -/
def Mark.station? : Mark → Option Station.Mark
  | .station k => some k
  | _ => none

/-- The history of the station in a relay. -/
def stationMarks (l : List Mark) : List Station.Mark :=
  l.filterMap Mark.station?

theorem stationMarks_map (l : List Station.Mark) : stationMarks (l.map .station) = l := by
  unfold stationMarks
  rw [List.filterMap_map]
  exact List.filterMap_some

/-- A move of a relay is one of its station, or leaves the station as it is. -/
theorem station_of_act (ha : allows settings s m = true) :
    (∃ m', s.station.allows settings m' = true ∧
        (act settings s m).1.station = (s.station.act settings m').1 ∧
        stationMarks (act settings s m).2 = (s.station.act settings m').2) ∨
      (act settings s m).1.station = s.station ∧ stationMarks (act settings s m).2 = [] := by
  cases m with
  | use m =>
    refine .inr ⟨rfl, ?_⟩
    show stationMarks (s.useMarks m) = []
    unfold useMarks
    split
    · split <;> rfl
    · rfl
  | plan c tokens =>
    refine .inr ?_
    show (s.plan settings c tokens).1.station = _ ∧ stationMarks (s.plan settings c tokens).2 = []
    unfold plan
    split <;> exact ⟨rfl, rfl⟩
  | send c r =>
    show (∃ m', _ ∧ (s.send settings c r).1.station = _ ∧ stationMarks (s.send settings c r).2 = _) ∨ _
    unfold send
    simp only [allows] at ha
    split at ha
    · rename_i w rest hstage
      exact .inl ⟨.schedule w r, rfl, rfl, stationMarks_map _⟩
    · exact absurd ha (by simp)
  | station m => exact .inl ⟨m, (Bool.and_eq_true_iff.mp ha).1, rfl, stationMarks_map _⟩
  | _ => exact .inr ⟨rfl, rfl⟩

/-- **The station in a relay runs as stations do.** -/
theorem station_of_run {cache : Cluster.Cache}
    (hl : (machine settings).legal (start settings cache) ms = true) :
    ∃ ms', (Station.machine settings).legal (.start settings) ms' = true ∧
      (Station.machine settings).run (.start settings) ms' =
        ((machine settings).run (start settings cache) ms).station ∧
      Station.history settings (.start settings) ms' =
        stationMarks (history settings (start settings cache) ms) := by
  show ∃ ms', _ ∧ _ ∧ _ = stationMarks
    ([] ++ (machine settings).log (fun s m => (act settings s m).2) (start settings cache) ms)
  refine (machine settings).log_keeps (P := fun s l => ∃ ms', (Station.machine settings).legal (.start settings) ms' = true ∧
      (Station.machine settings).run (.start settings) ms' = s.station ∧
      Station.history settings (.start settings) ms' = stationMarks l)
    (fun s l m hs ha => ?_) ⟨[], rfl, rfl, rfl⟩ hl
  obtain ⟨ms', hl', hrun, hhistory⟩ := hs
  have happend : stationMarks (l ++ (act settings s m).2) =
      stationMarks l ++ stationMarks (act settings s m).2 := List.filterMap_append
  rcases station_of_act ha with ⟨m', ha', hstation, hmarks⟩ | ⟨hstation, hmarks⟩
  · refine ⟨ms' ++ [m'], ?_, ?_, ?_⟩
    · rw [Machine.legal_append, hrun, Machine.legal_cons]
      exact ⟨hl', ha', rfl⟩
    · rw [Machine.run_append, hrun]
      exact hstation.symm
    · rw [happend, hmarks, ← hhistory, Station.history, Machine.log_append, hrun]
      show _ ++ ((s.station.act settings m').2 ++ []) = _
      rw [List.append_nil]
      rfl
  · refine ⟨ms', hl', hrun.trans hstation.symm, ?_⟩
    rw [happend, hmarks, List.append_nil, hhistory]

/-! ## Both runs are over -/

section Ended

variable {cache : Cluster.Cache} (hl : (machine settings).legal (start settings cache) ms = true)
  (hended : ((machine settings).run (start settings cache) ms).shift.phase = .ended)

include hl hended

/-- When the run has ended, no change is at any stage. -/
theorem stage_of_ended (c : Change) :
    ((machine settings).run (start settings cache) ms).stage? c = none := by
  have hsound := (Sound.start settings cache).run hl
  exact hsound.shift.stage_of_idle (hsound.shift.idle (.inr hended)) c

/-- An accepted change is translated. -/
theorem translated_of_accepted
    (hsplit : history settings (start settings cache) ms = before ++ .accepted c :: after) :
    ∃ c' cache tokens reports, (c == c') = true ∧
      .translated c' (Outbound.planned cache c') tokens reports ∈ after := by
  have hsound := (Sound.start settings cache).run hl
  have hanswer := (machine settings).log_answers (fun s m => (act settings s m).2) (Awaited c)
    (Mark.translates c) (P := Sound settings) (fun s m hs ha => hs.next m ha)
    (fun s m hs ha hawaited => awaited_of_step hs (step_of_allows ha) hawaited)
    (fun s m hs ha hmem => awaited_of_accepted (step_of_allows ha) hmem)
    (.start settings cache) hl hsplit
  rcases hanswer with (hpos | hfresh) | ⟨k, hk, hanswers⟩
  · obtain ⟨hload, -⟩ := hsound.shift.crew.floor.of_isIdle (p := (c == ·))
      (hsound.shift.idle (.inr hended))
    exact absurd (hload ▸ hpos) (Nat.lt_irrefl 0)
  · exact absurd (hfresh.symm.trans (stage_of_ended hl hended c)) (by simp)
  · cases k with
    | translated c' updates tokens reports =>
      obtain ⟨hc, planning, rfl⟩ := hanswers
      exact ⟨c', planning, tokens, reports, hc, hk⟩
    | _ => exact absurd hanswers id

/-- A copy of what a translation has yielded is accepted by the station. -/
theorem accepted_of_translated {updates : List Update} {tokens : Nat → Nat → String}
    {reports : List Report}
    (hsplit : history settings (start settings cache) ms =
      before ++ .translated c updates tokens reports :: after)
    (hw : w ∈ Delivery.copies settings.hosts updates tokens) (hhost : w.host ≠ "") :
    .station (.accepted w) ∈ after := by
  have hanswer := (machine settings).log_answers (fun s m => (act settings s m).2) (Pending w)
    (fun k => k = .station (.accepted w)) (P := Sound settings) (fun s m hs ha => hs.next m ha)
    (fun s m hs ha hpending => pending_of_step hs hhost (step_of_allows ha) hpending)
    (fun s m hs ha hmem => pending_of_translated (step_of_allows ha) hmem hw)
    (.start settings cache) hl hsplit
  rcases hanswer with ⟨c', copies, hpending, -⟩ | ⟨k, hk, rfl⟩
  · exact absurd (hpending.symm.trans (stage_of_ended hl hended c')) (by simp)
  · exact hk

end Ended

/-- **Relayed**: what has become of accepted changes. -/
structure Relayed (settings : Settings) (l : List Mark) : Prop where
  /-- Whenever a change was accepted, it or an equal one was translated afterwards: what was planned with
  the cache of that moment was yielded. -/
  translated : ∀ before c after, l = before ++ .accepted c :: after →
    ∃ c' cache tokens reports, (c == c') = true ∧
      .translated c' (Outbound.planned cache c') tokens reports ∈ after
  /-- Whenever a change was translated, the copy of every update for every host was accepted by the station
  afterwards, and has passed since then. -/
  delivered : ∀ before c updates tokens reports after,
    l = before ++ .translated c updates tokens reports :: after →
      ∀ i host, settings.hosts[i]? = some host → host ≠ "" → ∀ j u, updates[j]? = some u →
        ∃ a b, after = a ++ .station (.accepted (Delivery.copyFor tokens (i, host) (j, u))) :: b ∧
          Station.Passed (Delivery.copyFor tokens (i, host) (j, u))
            (stationMarks (before ++ .translated c updates tokens reports :: a)) (stationMarks b)

/-- **When both runs have ended, every accepted change was relayed.** -/
theorem relayed_of_ended {cache : Cluster.Cache} (hfits : settings.Fits)
    (hl : (machine settings).legal (start settings cache) ms = true)
    (hended : ((machine settings).run (start settings cache) ms).shift.phase = .ended)
    (hstation : ((machine settings).run (start settings cache) ms).station.shift.phase = .ended) :
    Relayed settings (history settings (start settings cache) ms) := by
  refine ⟨fun before c after hsplit => translated_of_accepted hl hended hsplit, ?_⟩
  intro before c updates tokens reports after hsplit i host hi hhost j u hj
  obtain ⟨a, b, rfl⟩ := List.append_of_mem
    (accepted_of_translated hl hended hsplit (Delivery.copyFor_mem tokens hi hj) hhost)
  refine ⟨a, b, rfl, ?_⟩
  obtain ⟨ms', hl', hrun, hhistory⟩ := station_of_run hl
  refine Station.passed_of_accepted hfits hl' (by rw [hrun]; exact hstation) (hhistory.trans ?_)
  rw [hsplit, ← List.cons_append, ← List.append_assoc]
  exact List.filterMap_append.trans (congrArg (_ ++ ·) (List.filterMap_cons_some rfl))

end BorderSync.Relay
