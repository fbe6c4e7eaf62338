/-
# BorderSync.Proofs.Station.Turn -- what a station does with one update

Of one update a station shows how much of it is on its way to a worker, how far a worker is with it, and
how often it has failed. A step changes this **view** in one of twelve ways, and none of them depends on
other updates: what a station does with one update is told here without looking at the rest.
-/
import BorderSync.Proofs.Station.Steps

namespace BorderSync

/-- **Fits**: the numbers of settings have the range of what they are read from, counts of 32 bits and
spans of time that are not longer than the longest. -/
structure Settings.Fits (settings : Settings) : Prop where
  retryCount : settings.outbound.retryCount ≤ Backoff.ceiling
  max : settings.outbound.queue.max.nanos ≤ Duration.longest.nanos

namespace Station

open Border Event
open WorkQueue (Floor)

variable {settings : Settings} {s t : Station} {m : Move} {marks : List Mark}

/-! ## One update -/

/-- **View** of one update. -/
structure View where
  /-- How much of it was accepted and not handed out. -/
  load : Nat
  stage : Option Handling
  requeues : Nat

/-- The view of an update. -/
def view (s : Station) (u : Update) : View :=
  ⟨s.shift.crew.floor.load (u == ·), s.stage? u, s.queue.requeues u⟩

/-- What happens to one update. -/
inductive Fate where
  | accepted
  | dispatched
  | judged (v : Delivery.Verdict)
  | readded (wait : Duration)
  | refused
  | abandoned
  deriving DecidableEq, Repr

/-- The update that a mark is about, and what has happened to it. -/
def Mark.about? : Mark → Option (Update × Fate)
  | .accepted u => some (u, .accepted)
  | .dispatched u _ => some (u, .dispatched)
  | .judged u v _ => some (u, .judged v)
  | .readded u wait => some (u, .readded wait)
  | .refused u _ => some (u, .refused)
  | .abandoned u _ _ => some (u, .abandoned)
  | _ => none

/-- What has happened to an update, in order. -/
def fates (u : Update) (l : List Mark) : List Fate :=
  (l.filterMap Mark.about?).filterMap fun p => if p.1 = u then some p.2 else none

/-- The wait after `n` earlier failures. -/
def pause (settings : Settings) (n : Nat) : Duration :=
  Backoff.pause settings.outbound.queue.base settings.outbound.queue.max n

/-- **Turn**: what a step does to the view of one update, and what happens to the update. -/
inductive Turn (settings : Settings) (s : Station) : View → List Fate → View → Prop
  /-- The step is about something else. -/
  | aside (v : View) : Turn settings s v [] v
  | accept {n n' : Nat} {stage : Option Handling} {k : Nat} (hopen : s.queue.closed = false)
    (hle : n ≤ n') (hle' : n' ≤ n + 1) (hpos : 0 < n') :
    Turn settings s ⟨n, stage, k⟩ [.accepted] ⟨n', stage, k⟩
  | land {n n' : Nat} {stage : Option Handling} {k : Nat} (hle : n' ≤ n) (hpos : 0 < n → 0 < n') :
    Turn settings s ⟨n, stage, k⟩ [] ⟨n', stage, k⟩
  | take {n k : Nat} : Turn settings s ⟨n + 1, none, k⟩ [] ⟨n, some .fresh, k⟩
  | begin {n k : Nat} (call : Call Outcome) (hgoing : s.hardStop = false) :
    Turn settings s ⟨n, some .fresh, k⟩ [.dispatched] ⟨n, some (.asking call), k⟩
  | answer {n k : Nat} (call call' : Call Outcome) :
    Turn settings s ⟨n, some (.asking call), k⟩ [] ⟨n, some (.asking call'), k⟩
  | finish {n k : Nat} (call : Call Outcome) (v : Delivery.Verdict)
    (hv : v = .applied ∨ v = .givenUp (k + 1) ∧ settings.outbound.retryCount ≤ k + 1) :
    Turn settings s ⟨n, some (.asking call), k⟩ [.judged v] ⟨n, some .settled, 0⟩
  | fail {n k : Nat} (call : Call Outcome) (hbelow : k + 1 < settings.outbound.retryCount) :
    Turn settings s ⟨n, some (.asking call), k⟩ [.judged (.again (k + 1))]
      ⟨n, some (.again (pause settings k)), k + 1⟩
  | readd {n n' k : Nat} (wait : Duration) (hopen : s.queue.closed = false) (hle : n ≤ n')
    (hle' : n' ≤ n + 1) (hpos : 0 < n') :
    Turn settings s ⟨n, some (.again wait), k⟩ [.readded wait] ⟨n', some .settled, k⟩
  | refuse {n k : Nat} (wait : Duration) (hclosed : s.queue.closed = true) :
    Turn settings s ⟨n, some (.again wait), k⟩ [.refused] ⟨n, some .settled, k⟩
  | abandon {n k : Nat} (h : Handling) (hundone : h = .fresh ∨ ∃ call, h = .asking call)
    (hstopped : s.hardStop = true) :
    Turn settings s ⟨n, some h, k⟩ [.abandoned] ⟨n, some .settled, 0⟩
  | done {n k : Nat} : Turn settings s ⟨n, some .settled, k⟩ [] ⟨n, none, k⟩

/-! ## Views after a step -/

theorem fates_append (u : Update) (l₁ l₂ : List Mark) :
    fates u (l₁ ++ l₂) = fates u l₁ ++ fates u l₂ := by
  unfold fates
  rw [List.filterMap_append, List.filterMap_append]

theorem fates_single {m : Mark} {u : Update} {f : Fate} (h : m.about? = some (u, f)) (w : Update) :
    fates w [m] = if w = u then [f] else [] := by
  unfold fates
  rw [List.filterMap_cons_some h]
  by_cases hw : w = u
  · simp [hw]
  · simp [hw, Ne.symm hw]

theorem fates_requestMarks (u w : Update) (call : Call Outcome) : fates u (requestMarks w call) = [] := by
  cases call <;> rfl

/-- What a worker has in hand goes on: nothing changes for other updates. -/
theorem view_turn (s : Station) (u w : Update) (h : Handling) :
    (s.turn u h).view w = if w = u then { s.view u with stage := some h } else s.view w := by
  have hstage : (s.turn u h).stage? w = if w == u then some h else s.stage? w :=
    Table.get?_insert s.shift.desks u w h
  unfold view
  rw [hstage]
  by_cases hw : w = u
  · subst hw
    rw [if_pos BEq.rfl, if_pos rfl]
    rfl
  · rw [if_neg (by simpa using hw), if_neg hw]
    rfl

/-- Counting a failure concerns the count of one update only. -/
theorem view_recordFailure (s : Station) (u w : Update) :
    (s.use (.recordFailure u)).view w =
      if w = u then { s.view u with requeues := min Backoff.ceiling (s.queue.requeues u + 1) }
      else s.view w := by
  have hcount : (s.use (.recordFailure u)).queue.requeues w =
      if w == u then min Backoff.ceiling (s.queue.backoff.count u + 1) else s.queue.backoff.count w :=
    Backoff.count_record s.queue.backoff u w
  unfold view
  rw [hcount]
  by_cases hw : w = u
  · subst hw
    rw [if_pos BEq.rfl, if_pos rfl]
    rfl
  · rw [if_neg (by simpa using hw), if_neg hw]
    rfl

/-- Forgetting concerns the count of one update only. -/
theorem view_forget (s : Station) (u w : Update) :
    (s.use (.forget u)).view w = if w = u then { s.view u with requeues := 0 } else s.view w := by
  have hcount : (s.use (.forget u)).queue.requeues w = if w == u then 0 else s.queue.backoff.count w :=
    Backoff.count_forget s.queue.backoff u w
  unfold view
  rw [hcount]
  by_cases hw : w = u
  · subst hw
    rw [if_pos BEq.rfl, if_pos rfl]
    rfl
  · rw [if_neg (by simpa using hw), if_neg hw]
    rfl

/-- An update that is settled is forgotten. -/
theorem view_forget_turn (s : Station) (u w : Update) :
    ((s.use (.forget u)).turn u .settled).view w =
      if w = u then ⟨(s.view u).load, some .settled, 0⟩ else s.view w := by
  rw [view_turn, view_forget, view_forget, if_pos rfl]
  by_cases hw : w = u <;> simp [hw]

/-- An add concerns what is on its way only. -/
theorem view_addAfter (s : Station) (u w : Update) (d : Duration) :
    (s.use (.addAfter u d)).view w =
      { s.view w with load := (s.shift.crew.floor.addAfter u d).load (w == ·) } := by
  have hcount : (s.use (.addAfter u d)).queue.requeues w = s.queue.requeues w :=
    congrArg (Backoff.count · w) (WorkQueue.backoff_addAfter s.queue u d)
  unfold view
  rw [hcount]
  rfl

/-- An open queue takes an update in; what else is on its way stays as it is. -/
theorem view_accept (hopen : s.queue.closed = false) (u w : Update) (d : Duration) :
    ∃ n, (s.use (.addAfter u d)).view w = (if w = u then { s.view u with load := n } else s.view w) ∧
      (s.view u).load ≤ n ∧ n ≤ (s.view u).load + 1 ∧ 0 < n := by
  obtain ⟨hle, hle', hpos⟩ := Floor.load_addAfter (coarse_beq u) s.shift.crew.floor hopen u d
  rw [BEq.rfl, Bool.toNat_true] at hle'
  refine ⟨(s.shift.crew.floor.addAfter u d).load (u == ·), ?_, hle, hle', hpos BEq.rfl⟩
  rw [view_addAfter]
  by_cases hw : w = u
  · subst hw
    rw [if_pos rfl]
  · obtain ⟨hle, hle', -⟩ := Floor.load_addAfter (coarse_beq w) s.shift.crew.floor hopen u d
    rw [beq_eq_false_iff_ne.mpr hw, Bool.toNat_false, Nat.add_zero] at hle'
    rw [if_neg hw, Nat.le_antisymm hle' hle]
    rfl

/-! ## Steps are turns -/

/-- A step that concerns one update is a turn for every update, if it is one for that update. -/
theorem turn_of_own {u w : Update} {m : Mark} {f : Fate} {new : View} (habout : m.about? = some (u, f))
    (hview : t.view w = if w = u then new else s.view w)
    (hturn : Turn settings s (s.view u) [f] new) :
    Turn settings s (s.view w) (fates w [m]) (t.view w) := by
  rw [fates_single habout, hview]
  by_cases hw : w = u
  · subst hw
    rw [if_pos rfl, if_pos rfl]
    exact hturn
  · rw [if_neg hw, if_neg hw]
    exact .aside _

theorem turn_accept (hopen : s.queue.closed = false) (u w : Update) (d : Duration) :
    Turn settings s (s.view w) (fates w [.accepted u]) ((s.use (.addAfter u d)).view w) := by
  obtain ⟨n, hview, hle, hle', hpos⟩ := view_accept hopen u w d
  exact turn_of_own rfl hview (.accept hopen hle hle' hpos)

theorem turn_land {u : Update} (hcoming : s.shift.crew.floor.coming.contains u = true) (w : Update) :
    Turn settings s (s.view w) [] ((s.use (.land u)).view w) := by
  obtain ⟨hle, hpos⟩ := Floor.load_land (coarse_beq w) s.shift.crew.floor hcoming
  have hcount : (s.use (.land u)).queue.requeues w = s.queue.requeues w :=
    congrArg (Backoff.count · w) (WorkQueue.backoff_land s.queue u)
  unfold view
  rw [hcount]
  exact .land hle hpos

theorem turn_take (h : s.Sound settings) {u : Update} {later : List Update}
    (hwaiting : s.queue.waiting = u :: later) (w : Update) :
    Turn settings s (s.view w) [] (view { s with shift := s.shift.ask .fresh } w) := by
  have hload := Floor.load_take (coarse_beq w) h.shift.crew.floor.queue hwaiting
  have hview : view { s with shift := s.shift.ask .fresh } w =
      ⟨s.shift.crew.floor.take.load (w == ·), if w == u then some .fresh else s.stage? w,
        s.queue.requeues w⟩ := by
    have hcount : (s.shift.ask .fresh).queue.requeues w = s.queue.requeues w :=
      congrArg (Backoff.count · w) s.backoff_ask
    unfold view
    rw [hcount, Shift.ask_of_waiting hwaiting]
    exact congrArg (View.mk _ · _) (Table.get?_insert s.shift.desks u w .fresh)
  rw [hview]
  by_cases hw : w = u
  · subst hw
    rw [BEq.rfl, Bool.toNat_true] at hload
    rw [if_pos BEq.rfl]
    unfold view
    rw [← hload, show s.stage? w = none from h.shift.not_in_hand hwaiting]
    exact .take
  · rw [beq_eq_false_iff_ne.mpr hw, Bool.toNat_false, Nat.add_zero] at hload
    rw [if_neg (by simpa using hw), hload]
    exact .aside _

/-- A worker that finds nothing leaves all updates as they are. -/
theorem view_rest (hwaiting : s.queue.waiting = []) (w : Update) :
    view { s with shift := s.shift.ask .fresh } w = s.view w := by
  have hfloor : s.shift.crew.ask.floor = s.shift.crew.floor :=
    s.shift.crew.floor_ask.trans (Floor.take_of_empty hwaiting)
  unfold view
  rw [Shift.ask_of_empty hwaiting]
  show View.mk (s.shift.crew.ask.floor.load (w == ·)) _ (s.shift.crew.ask.floor.queue.requeues w) = _
  rw [hfloor]

theorem turn_begin {u : Update} (hstage : s.stage? u = some .fresh) (hgoing : s.hardStop = false)
    (reports : List Report) (call : Call Outcome) (w : Update) :
    Turn settings s (s.view w) (fates w (.dispatched u reports :: requestMarks u call))
      ((s.turn u (.asking call)).view w) := by
  rw [← List.singleton_append, fates_append, fates_requestMarks, List.append_nil]
  refine turn_of_own rfl (view_turn s u w _) ?_
  unfold view
  rw [hstage]
  exact .begin call hgoing

theorem turn_answer {u : Update} {call : Call Outcome} (hstage : s.stage? u = some (.asking call))
    (call' : Call Outcome) (w : Update) :
    Turn settings s (s.view w) (fates w (requestMarks u call'))
      ((s.turn u (.asking call')).view w) := by
  rw [view_turn, fates_requestMarks]
  by_cases hw : w = u
  · subst hw
    rw [if_pos rfl]
    unfold view
    rw [hstage]
    exact .answer call call'
  · rw [if_neg hw]
    exact .aside _

theorem turn_finish {u : Update} {o : Outcome} {v : Delivery.Verdict}
    (hstage : s.stage? u = some (.asking (.done o)))
    (hv : Delivery.verdict settings.outbound.retryCount (s.queue.requeues u) o.result = v)
    (hfinal : ∀ n, v ≠ .again n) (reports : List Report) (w : Update) :
    Turn settings s (s.view w) (fates w [.judged u v reports])
      (((s.use (.forget u)).turn u .settled).view w) := by
  have hkind : v = .applied ∨ v = .givenUp (s.queue.requeues u + 1) ∧
      settings.outbound.retryCount ≤ s.queue.requeues u + 1 := by
    unfold Delivery.verdict at hv
    split at hv
    · exact .inl hv.symm
    · split at hv
      · exact absurd hv.symm (hfinal _)
      · exact .inr ⟨hv.symm, by omega⟩
  refine turn_of_own rfl (view_forget_turn s u w) ?_
  unfold view
  rw [hstage]
  exact .finish _ v hkind

theorem turn_fail (hfits : settings.Fits) (h : s.Sound settings) {u : Update} {o : Outcome}
    (hstage : s.stage? u = some (.asking (.done o)))
    (hbelow : s.queue.requeues u + 1 < settings.outbound.retryCount) (reports : List Report)
    (w : Update) :
    Turn settings s (s.view w) (fates w [.judged u (.again (s.queue.requeues u + 1)) reports])
      (((s.use (.recordFailure u)).turn u (.again (s.queue.backoff.wait u))).view w) := by
  have hwait : s.queue.backoff.wait u = pause settings (s.queue.requeues u) := by
    unfold Backoff.wait pause
    rw [Backoff.delay_eq_pause (h.max ▸ hfits.max), h.base, h.max]
    rfl
  have hceiling := hfits.retryCount
  have hview : ((s.use (.recordFailure u)).turn u (.again (s.queue.backoff.wait u))).view w =
      if w = u then ⟨(s.view u).load, some (.again (pause settings (s.queue.requeues u))),
        s.queue.requeues u + 1⟩ else s.view w := by
    rw [view_turn, view_recordFailure, view_recordFailure, if_pos rfl, hwait,
      Nat.min_eq_right (by omega)]
    by_cases hw : w = u <;> simp [hw]
  refine turn_of_own rfl hview ?_
  unfold view
  rw [hstage]
  exact .fail _ hbelow

theorem turn_readd (hopen : s.queue.closed = false) {u : Update} {wait : Duration}
    (hstage : s.stage? u = some (.again wait)) (w : Update) :
    Turn settings s (s.view w) (fates w [.readded u wait])
      (((s.use (.addAfter u wait)).turn u .settled).view w) := by
  obtain ⟨n, hown, hle, hle', hpos⟩ := view_accept hopen u u wait
  obtain ⟨n', hother, -⟩ := view_accept hopen u w wait
  have hview : ((s.use (.addAfter u wait)).turn u .settled).view w =
      if w = u then ⟨n, some .settled, s.queue.requeues u⟩ else s.view w := by
    rw [view_turn, hown, if_pos rfl, hother]
    by_cases hw : w = u <;> simp [hw, view]
  refine turn_of_own rfl hview ?_
  unfold view at hle hle' ⊢
  rw [hstage]
  exact .readd wait hopen hle hle' hpos

theorem turn_refuse (hclosed : s.queue.closed = true) {u : Update} {wait : Duration}
    (hstage : s.stage? u = some (.again wait)) (reports : List Report) (w : Update) :
    Turn settings s (s.view w) (fates w [.refused u reports]) ((s.turn u .settled).view w) := by
  refine turn_of_own rfl (view_turn s u w _) ?_
  unfold view
  rw [hstage]
  exact .refuse wait hclosed

theorem turn_abandon {u : Update} {handling : Handling} (hstage : s.stage? u = some handling)
    (hundone : handling = .fresh ∨ ∃ call, handling = .asking call) (hstopped : s.hardStop = true)
    (moment : Nat) (reports : List Report) (w : Update) :
    Turn settings s (s.view w) (fates w [.abandoned u moment reports])
      (((s.use (.forget u)).turn u .settled).view w) := by
  refine turn_of_own rfl (view_forget_turn s u w) ?_
  unfold view
  rw [hstage]
  exact .abandon handling hundone hstopped

theorem turn_done {u : Update} (hstage : s.stage? u = some .settled) (w : Update) :
    Turn settings s (s.view w) [] (view { s with shift := s.shift.done u } w) := by
  have hview : view { s with shift := s.shift.done u } w =
      { s.view w with stage := if w == u then none else s.stage? w } := by
    unfold view
    exact congrArg (View.mk _ · _) (Table.get?_erase s.shift.desks u w)
  rw [hview]
  by_cases hw : w = u
  · subst hw
    rw [if_pos BEq.rfl]
    unfold view
    rw [hstage]
    exact .done
  · rw [if_neg (by simpa using hw)]
    exact .aside _

/-- **Every step is a turn**, for every update. -/
theorem turn_of_step (hfits : settings.Fits) (h : s.Sound settings)
    (hstep : Step settings s m t marks) (w : Update) :
    Turn settings s (s.view w) (fates w marks) (t.view w) := by
  cases hstep with
  | pass millis => exact .aside _
  | drop u r hhost => exact .aside _
  | accept u r delay hhost hopen => exact turn_accept hopen u w delay
  | turnAway u r reports hhost hclosed => exact .aside _
  | land u hcoming => exact turn_land hcoming w
  | take u later hwaiting hfree => exact turn_take h hwaiting w
  | rest hwaiting hfree =>
    rw [view_rest hwaiting]
    exact .aside _
  | begin u hstage hgoing => exact turn_begin hstage hgoing _ _ w
  | answer u a q next hstage hgoing => exact turn_answer hstage _ w
  | finish u o v hstage hv hfinal => exact turn_finish hstage hv hfinal _ w
  | fail u o hstage hbelow reports => exact turn_fail hfits h hstage hbelow reports w
  | readd u wait hstage hopen => exact turn_readd hopen hstage w
  | refuse u wait reports hstage hclosed => exact turn_refuse hclosed hstage reports w
  | abandon u handling hstage hundone hstopped => exact turn_abandon hstage hundone hstopped _ _ w
  | done u hstage => exact turn_done hstage w
  | close hphase => exact .aside _
  | hurry hphase hgoing hgrace => exact .aside _
  | drained hphase hidle => exact .aside _
  | join hphase hgone => exact .aside _

end Station

end BorderSync
