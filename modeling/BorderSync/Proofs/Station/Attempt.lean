/-
# BorderSync.Proofs.Station.Attempt -- what a station asks for an update

Between the moment at which an attempt at an update begins and the one at which its worker is done with it,
the station asks for this update what carrying it out asks, given the answers that come, and nothing else.
How often the update has failed before plays no part in that: it only decides what follows from the result.
And no verdict is made on the update but on the result to which the answers of its own attempt have led.
-/
import BorderSync.Proofs.Border.Conduct
import BorderSync.Proofs.Station.Turn
import Mathlib.Data.List.Induction

namespace BorderSync.Station

open Border Event

/-! ## One update in moves and marks -/

/-- The answers that moves bring to an update. -/
def answersTo (u : Update) (ms : List Move) : List Answer :=
  ms.filterMap fun
    | .answer w a => if w = u then some a else none
    | _ => none

/-- The requests that are made for an update. -/
def requestsFor (u : Update) (l : List Mark) : List Request :=
  l.filterMap fun
    | .requested w q => if w = u then some q else none
    | _ => none

/-- The verdicts on attempts at an update. -/
def verdictsOn (u : Update) (l : List Mark) : List Delivery.Verdict :=
  l.filterMap fun
    | .judged w v _ => if w = u then some v else none
    | _ => none

section Marks

variable (u : Update)

theorem requestsFor_append (l₁ l₂ : List Mark) :
    requestsFor u (l₁ ++ l₂) = requestsFor u l₁ ++ requestsFor u l₂ :=
  List.filterMap_append

theorem verdictsOn_append (l₁ l₂ : List Mark) :
    verdictsOn u (l₁ ++ l₂) = verdictsOn u l₁ ++ verdictsOn u l₂ :=
  List.filterMap_append

theorem answersTo_cons (m : Move) (ms : List Move) :
    answersTo u (m :: ms) = answersTo u [m] ++ answersTo u ms :=
  List.filterMap_append (l := [m])

/-- The mark of a request tells what its conversation asks next. -/
theorem requestsFor_requestMarks (w : Update) (c : Call Outcome) :
    requestsFor u (requestMarks w c) = if w = u then c.requests [] else [] := by
  cases c with
  | done o => simp [requestMarks, requestsFor]
  | ask q next => by_cases hw : w = u <;> simp [requestMarks, requestsFor, Call.requests, hw]

theorem verdictsOn_requestMarks (w : Update) (c : Call Outcome) : verdictsOn u (requestMarks w c) = [] := by
  cases c <;> rfl

end Marks

/-! ## One step -/

variable {settings : Settings} {s t : Station} {u : Update} {m : Move} {marks : List Mark}

/-- **Advance**: what a step does to an update in hand that has been begun, with the answers that the step
brings, the requests that it makes, and its verdicts. -/
inductive Advance (limit requeues : Nat) : Handling → List Answer → List Request → List Delivery.Verdict →
    Handling → Prop
  /-- The step is about something else. -/
  | aside (h : Handling) : Advance limit requeues h [] [] [] h
  | answer (q : Request) (next : Answer → Call Outcome) (a : Answer) :
    Advance limit requeues (.asking (.ask q next)) [a] ((next a).requests []) [] (.asking (next a))
  | judge (o : Outcome) (new : Handling) (hover : new = .settled ∨ ∃ wait, new = .again wait) :
    Advance limit requeues (.asking (.done o)) [] [] [Delivery.verdict limit requeues o.result] new
  | leave (h : Handling) : Advance limit requeues h [] [] [] .settled

/-- Updates in hand stay where they are when another one goes on. -/
theorem stage_turn_of_ne {w : Update} (hw : w ≠ u) (h : Handling) : (s.turn w h).stage? u = s.stage? u := by
  refine (Table.get?_insert s.shift.desks w u h).trans (if_neg ?_)
  intro heq
  exact hw (eq_of_beq heq).symm

/-- The update of a turn is where the turn takes it, any other where it was. -/
theorem asking_of_turn {w : Update} {new : Handling} {c : Call Outcome}
    (hstage : (s.turn w new).stage? u = some (.asking c)) :
    w = u ∧ new = .asking c ∨ w ≠ u ∧ s.stage? u = some (.asking c) := by
  by_cases hw : w = u
  · subst hw
    exact .inl ⟨rfl, Option.some.inj ((Shift.stage_self _ _ _).symm.trans hstage)⟩
  · exact .inr ⟨hw, (stage_turn_of_ne hw new).symm.trans hstage⟩

theorem stage_done_of_ne {w : Update} (hw : w ≠ u) :
    stage? { s with shift := s.shift.done w } u = s.stage? u := by
  refine (Table.get?_erase s.shift.desks w u).trans (if_neg ?_)
  intro heq
  exact hw (eq_of_beq heq).symm

/-- A step that is about another update is none for this one. -/
theorem advance_aside {limit requeues : Nat} {old : Handling} (hstage : t.stage? u = some old)
    (hanswers : answersTo u [m] = []) (hrequests : requestsFor u marks = [])
    (hverdicts : verdictsOn u marks = []) :
    ∃ new, t.stage? u = some new ∧
      Advance limit requeues old (answersTo u [m]) (requestsFor u marks) (verdictsOn u marks) new := by
  rw [hanswers, hrequests, hverdicts]
  exact ⟨old, hstage, .aside old⟩

/-- A worker that is through with an update leaves it, and others stay where they are. -/
theorem advance_settled {limit requeues : Nat} {old : Handling} (w : Update) (hstage : s.stage? u = some old) :
    ∃ new, (s.turn w .settled).stage? u = some new ∧ Advance limit requeues old [] [] [] new := by
  by_cases hw : w = u
  · subst hw
    exact ⟨.settled, Shift.stage_self _ _ _, .leave old⟩
  · exact ⟨old, (stage_turn_of_ne hw _).trans hstage, .aside old⟩

/-- A worker that settles an attempt judges its result. -/
theorem settle_eq (settings : Settings) {w : Update} {o : Outcome}
    (hover : s.stage? w = some (.asking (.done o))) :
    ∃ (s' : Station) (new : Handling) (reports : List Report), s.settle settings w = (s'.turn w new,
        [.judged w (Delivery.verdict settings.outbound.retryCount (s.queue.requeues w) o.result) reports]) ∧
      s'.shift.desks = s.shift.desks ∧ (new = .settled ∨ ∃ wait, new = .again wait) := by
  unfold settle
  rw [hover]
  cases hv : Delivery.verdict settings.outbound.retryCount (s.queue.requeues w) o.result with
  | again n =>
    simp only [hv]
    exact ⟨_, _, _, rfl, rfl, .inr ⟨_, rfl⟩⟩
  | applied =>
    simp only [hv]
    exact ⟨_, _, _, rfl, rfl, .inl rfl⟩
  | givenUp n =>
    simp only [hv]
    exact ⟨_, _, _, rfl, rfl, .inl rfl⟩

theorem advance_settle {w : Update} (ha : allows settings s (.settle w) = true) {old : Handling}
    (hstage : s.stage? u = some old) :
    ∃ new, (s.settle settings w).1.stage? u = some new ∧ Advance settings.outbound.retryCount
      (s.queue.requeues u) old (answersTo u [.settle w]) (requestsFor u (s.settle settings w).2)
      (verdictsOn u (s.settle settings w).2) new := by
  simp only [allows] at ha
  split at ha
  · rename_i o hover
    obtain ⟨s', new, reports, hsettle, hdesks, hnew⟩ := settle_eq settings hover
    rw [hsettle]
    by_cases hw : w = u
    · subst hw
      obtain rfl := Option.some.inj (hstage.symm.trans hover)
      refine ⟨new, Shift.stage_self _ _ _, ?_⟩
      simp only [verdictsOn, List.filterMap_cons, if_pos, List.filterMap_nil]
      exact .judge o new hnew
    · have hkept : s'.stage? u = some old := by
        rw [stage?, hdesks]
        exact hstage
      refine advance_aside ((stage_turn_of_ne hw _).trans hkept) rfl rfl ?_
      simp [verdictsOn, hw]
  · exact absurd ha (by simp)

/-- Every other step advances an update that has been begun, too, until its worker is done with it. -/
theorem advance_of_step (h : s.Sound settings) (hstep : Step settings s m t marks) {old : Handling}
    (hstage : s.stage? u = some old) (hbegun : old ≠ .fresh) (hdone : m ≠ .done u)
    (hsettle : ∀ w, m ≠ .settle w) :
    ∃ new, t.stage? u = some new ∧ Advance settings.outbound.retryCount (s.queue.requeues u) old
      (answersTo u [m]) (requestsFor u marks) (verdictsOn u marks) new := by
  cases hstep with
  | take w later hwaiting hfree => exact advance_aside (Shift.stage_ask h.shift hstage .fresh) rfl rfl rfl
  | rest hwaiting hfree => exact advance_aside (Shift.stage_ask h.shift hstage .fresh) rfl rfl rfl
  | begin w hfresh hgoing =>
    have hw : w ≠ u := by
      rintro rfl
      exact hbegun (Option.some.inj (hstage.symm.trans hfresh))
    refine advance_aside ((stage_turn_of_ne hw _).trans hstage) rfl ?_ (verdictsOn_requestMarks u w _)
    exact (requestsFor_requestMarks u w _).trans (if_neg hw)
  | answer w a q next hasking hgoing =>
    by_cases hw : w = u
    · subst hw
      obtain rfl := Option.some.inj (hstage.symm.trans hasking)
      refine ⟨_, Shift.stage_self _ _ _, ?_⟩
      rw [requestsFor_requestMarks, verdictsOn_requestMarks, if_pos rfl,
        show answersTo w [.answer w a] = [a] by simp [answersTo]]
      exact .answer q next a
    · refine advance_aside ((stage_turn_of_ne hw _).trans hstage) ?_ ?_ (verdictsOn_requestMarks u w _)
      · simp [answersTo, hw]
      · exact (requestsFor_requestMarks u w _).trans (if_neg hw)
  | finish w => exact absurd rfl (hsettle w)
  | fail w => exact absurd rfl (hsettle w)
  | readd w wait hagain hopen => exact advance_settled w hstage
  | refuse w wait reports hagain hclosed => exact advance_settled w hstage
  | abandon w handling hhand hundone hstopped => exact advance_settled w hstage
  | done w hsettled =>
    have hw : w ≠ u := by
      rintro rfl
      exact hdone rfl
    exact advance_aside ((stage_done_of_ne hw).trans hstage) rfl rfl rfl
  | _ => exact advance_aside hstage rfl rfl rfl

/-- **Every allowed move advances an update that has been begun**, until its worker is done with it. -/
theorem advance_of_allows (h : s.Sound settings) (ha : allows settings s m = true) {old : Handling}
    (hstage : s.stage? u = some old) (hbegun : old ≠ .fresh) (hdone : m ≠ .done u) :
    ∃ new, (act settings s m).1.stage? u = some new ∧ Advance settings.outbound.retryCount
      (s.queue.requeues u) old (answersTo u [m]) (requestsFor u (act settings s m).2)
      (verdictsOn u (act settings s m).2) new := by
  cases m with
  | settle w => exact advance_settle ha hstage
  | _ => exact advance_of_step h (step_of_allows ha) hstage hbegun hdone (by simp)

/-- **While an update is attempted**, nothing counts its failures or forgets them. -/
theorem requeues_of_step (hstep : Step settings s m t marks) {c : Call Outcome}
    (hstage : t.stage? u = some (.asking c)) : t.queue.requeues u = s.queue.requeues u := by
  -- who counts or forgets has another update in hand
  have hother : ∀ {s' : Station} {w : Update} {new : Handling}, (s'.turn w new).stage? u = some (.asking c) →
      (∀ c', new ≠ .asking c') → u ≠ w := by
    intro s' w new hasking hnew
    obtain ⟨-, hsame⟩ | ⟨hw, -⟩ := asking_of_turn hasking
    · exact absurd hsame (hnew c)
    · exact hw.symm
  have hforget : ∀ w, u ≠ w → (s.use (.forget w)).queue.requeues u = s.queue.requeues u :=
    fun w hw => congrArg View.requeues ((view_forget s w u).trans (if_neg hw))
  have hadd : ∀ w delay, (s.use (.addAfter w delay)).queue.requeues u = s.queue.requeues u :=
    fun w delay => congrArg (Backoff.count · u) (WorkQueue.backoff_addAfter s.queue w delay)
  cases hstep with
  | accept w r delay hhost hopen => exact hadd w delay
  | land w hcoming => exact congrArg (Backoff.count · u) (WorkQueue.backoff_land s.queue w)
  | take w later hwaiting hfree => exact congrArg (Backoff.count · u) s.backoff_ask
  | rest hwaiting hfree => exact congrArg (Backoff.count · u) s.backoff_ask
  | finish w o v hover hv hfinal => exact hforget w (hother hstage (by simp))
  | fail w o hover hbelow reports =>
    have hw := hother hstage (by simp)
    exact congrArg View.requeues ((view_recordFailure s w u).trans (if_neg hw))
  | readd w wait hagain hopen => exact hadd w wait
  | abandon w handling hhand hundone hstopped => exact hforget w (hother hstage (by simp))
  | _ => rfl

/-! ## All of an attempt -/

/-- **Follows**: what an update in hand asks and how it is judged, while answers come. -/
def Follows (limit requeues : Nat) (answers : List Answer) (requests : List Request)
    (verdicts : List Delivery.Verdict) : Handling → Prop
  | .asking c => c.requests [] ++ requests = c.requests answers ∧ ∀ v ∈ verdicts, ∃ o,
      (c.hear answers).result? = some o ∧ v = Delivery.verdict limit requeues o.result
  | .fresh => True
  | _ => answers = [] ∧ requests = [] ∧ verdicts = []

/-- An update that nothing happens to follows what it has asked. -/
theorem follows_nil (limit requeues : Nat) (h : Handling) : Follows limit requeues [] [] [] h := by
  cases h with
  | asking c => exact ⟨List.append_nil _, fun v hv => absurd hv List.not_mem_nil⟩
  | fresh => trivial
  | _ => exact ⟨rfl, rfl, rfl⟩

/-- What follows an advance follows what was before it. -/
theorem Advance.follows {limit requeues : Nat} {old new : Handling} {answers answers' : List Answer}
    {requests requests' : List Request} {verdicts verdicts' : List Delivery.Verdict}
    (hadvance : Advance limit requeues old answers requests verdicts new)
    (h : Follows limit requeues answers' requests' verdicts' new) :
    Follows limit requeues (answers ++ answers') (requests ++ requests') (verdicts ++ verdicts') old := by
  cases hadvance with
  | aside old => exact h
  | answer q next a =>
    obtain ⟨hrequests, hverdicts⟩ := h
    exact ⟨congrArg (q :: ·) hrequests, hverdicts⟩
  | judge o new hover =>
    -- nothing is asked any more once an attempt is judged
    obtain ⟨rfl, rfl, rfl⟩ : answers' = [] ∧ requests' = [] ∧ verdicts' = [] := by
      obtain rfl | ⟨wait, rfl⟩ := hover
      · exact h
      · exact h
    refine ⟨rfl, ?_⟩
    intro v hv
    obtain rfl := List.mem_singleton.mp hv
    exact ⟨o, rfl, rfl⟩
  | leave old =>
    obtain ⟨rfl, rfl, rfl⟩ := h
    exact follows_nil limit requeues old

/-- An advance begins nothing. -/
theorem Advance.ne_fresh {limit requeues : Nat} {old new : Handling} {answers : List Answer}
    {requests : List Request} {verdicts : List Delivery.Verdict} (hadvance : Advance limit requeues old answers requests verdicts new)
    (hbegun : old ≠ .fresh) : new ≠ .fresh := by
  cases hadvance with
  | aside old => exact hbegun
  | judge o new hover =>
    rintro rfl
    simp at hover
  | _ => simp

/-- **Every run follows an update that has been begun**, until its worker is done with it. -/
theorem follows_run {ms : List Move} (h : s.Sound settings) (hl : (machine settings).legal s ms = true)
    {old : Handling} (hstage : s.stage? u = some old) (hbegun : old ≠ .fresh) (hdone : .done u ∉ ms) :
    Follows settings.outbound.retryCount (s.queue.requeues u) (answersTo u ms)
      (requestsFor u (history settings s ms)) (verdictsOn u (history settings s ms)) old := by
  induction ms generalizing s old with
  | nil => exact follows_nil _ _ old
  | cons m ms ih =>
    obtain ⟨ha, hl⟩ := ((machine settings).legal_cons s m ms).mp hl
    obtain ⟨hm, hms⟩ : m ≠ .done u ∧ .done u ∉ ms := by
      simpa [eq_comm] using hdone
    obtain ⟨new, hnew, hadvance⟩ := advance_of_allows h ha hstage hbegun hm
    have hrest := ih (h.next m ha) hl hnew (hadvance.ne_fresh hbegun) hms
    rw [answersTo_cons, history, Machine.log_cons, requestsFor_append, verdictsOn_append]
    refine hadvance.follows ?_
    cases new with
    | asking c =>
      rw [← requeues_of_step (step_of_allows ha) hnew]
      exact hrest
    | _ => exact hrest

/-- **An attempt asks what carrying out its update asks**, in every run and however often the update has
failed before, up to the moment at which its worker is done with it; a verdict on it is the one on its result
after these failures. -/
theorem attempt_follows {before after : List Move}
    (hl : (machine settings).legal (start settings) (before ++ .begin u :: after) = true)
    (hdone : .done u ∉ after) :
    requestsFor u (history settings ((machine settings).run (start settings) before) (.begin u :: after)) =
        (carryOut u).requests (answersTo u after) ∧
      ∀ v ∈ verdictsOn u
          (history settings ((machine settings).run (start settings) before) (.begin u :: after)),
        ∃ result, ((carryOut u).hear (answersTo u after)).result? = some result ∧
          v = Delivery.verdict settings.outbound.retryCount
            (((machine settings).run (start settings) before).queue.requeues u) result := by
  obtain ⟨hbefore, hl⟩ := ((machine settings).legal_append _ _ _).mp hl
  obtain ⟨ha, hl⟩ := ((machine settings).legal_cons _ _ _).mp hl
  have hsound := (Sound.start settings).run hbefore
  generalize (machine settings).run (start settings) before = s at ha hl hsound ⊢
  obtain ⟨hrequests, hverdicts⟩ :=
    follows_run (hsound.next (.begin u) ha) hl (Shift.stage_self _ _ _) (by simp) hdone
  have hmarks : history settings s (.begin u :: after) =
      .dispatched u (dispatch u).1 :: requestMarks u (dispatch u).2 ++
        history settings ((machine settings).next s (.begin u)) after := rfl
  constructor
  · rw [hmarks, requestsFor_append, carryOut, Call.requests_map, ← hrequests]
    exact congrArg (· ++ _) ((requestsFor_requestMarks u u _).trans (if_pos rfl))
  · intro v hv
    rw [hmarks, verdictsOn_append] at hv
    have hbegin : verdictsOn u (.dispatched u (dispatch u).1 :: requestMarks u (dispatch u).2) = [] :=
      verdictsOn_requestMarks u u _
    rw [hbegin, List.nil_append] at hv
    obtain ⟨o, hresult, rfl⟩ := hverdicts v hv
    refine ⟨o.result, ?_, rfl⟩
    rw [carryOut, Call.result?_hear_map, hresult]
    rfl

/-- **Conduct of attempts.** Whatever a border server answers, carrying out an update asks nothing that the
update does not call for, and ends with the first failure. That, and nothing else, is what is asked for the
update in every run while a worker attempts it; how often it has failed before only enters the verdict. -/
theorem attempt_conduct (settings : Settings) (u : Update) (answers : List Answer) :
    Conduct u answers ((carryOut u).requests answers) ((carryOut u).hear answers).result? ∧
      ∀ before after, (machine settings).legal (start settings) (before ++ .begin u :: after) = true →
        .done u ∉ after → answersTo u after = answers →
          let s := (machine settings).run (start settings) before
          let l := history settings s (.begin u :: after)
          requestsFor u l = (carryOut u).requests answers ∧
            ∀ v ∈ verdictsOn u l, ∃ result, ((carryOut u).hear answers).result? = some result ∧
              v = Delivery.verdict settings.outbound.retryCount (s.queue.requeues u) result := by
  refine ⟨carryOut_conduct u answers, ?_⟩
  intro before after hl hdone hanswers
  subst hanswers
  exact attempt_follows hl hdone

/-- An update of an upstream that holds one unwanted entry. -/
def unmet : Update where
  id := "42"
  clientType := "http"
  kind := .updated
  host := "http://lb"
  upstream := "web"
  servers := ["10.0.0.1:80"]

/-- The unwanted entry is listed, and the post of the missing one is refused. -/
def refusedPost : List Answer :=
  [.ok ⟨200, (Json.Value.array [Entry.toJson .http { id := some 7, server := "10.0.0.9:80" }]).render⟩,
    .ok ⟨500, []⟩]

/-- The attempt at this update, with these answers. -/
def refusedAttempt : List Move :=
  refusedPost.map (.answer unmet) ++ [.settle unmet]

/-- A refused post is the end of an attempt: the unwanted entry is not deleted. -/
theorem attempt_conduct_refused :
    ((machine {}).legal (start {}) ([.schedule unmet 0, .land unmet, .ask] ++ .begin unmet :: refusedAttempt)
        = true ∧ .done unmet ∉ refusedAttempt ∧ answersTo unmet refusedAttempt = refusedPost) ∧
      (requestsFor unmet (history {} ((machine {}).run (start {}) [.schedule unmet 0, .land unmet, .ask])
        (.begin unmet :: refusedAttempt))).map Request.method = [.get, .post] := by
  have hlegal : (machine {}).legal (start {})
      ([.schedule unmet 0, .land unmet, .ask] ++ .begin unmet :: refusedAttempt) = true := by
    decide +kernel
  have hdone : .done unmet ∉ refusedAttempt := by
    simp [refusedAttempt, refusedPost]
  have hanswers : answersTo unmet refusedAttempt = refusedPost := by
    simp [answersTo, refusedAttempt, refusedPost]
  obtain ⟨-, hruns⟩ := attempt_conduct {} unmet refusedPost
  refine ⟨⟨hlegal, hdone, hanswers⟩, ?_⟩
  rw [(hruns _ _ hlegal hdone hanswers).1]
  decide +kernel

/-! ## Where a verdict comes from -/

/-- An attempt is applied exactly when its result is a success. -/
theorem verdict_eq_applied_iff (limit requeues : Nat) (result : Except Error Unit) :
    Delivery.verdict limit requeues result = .applied ↔ result = .ok () := by
  cases result with
  | ok r => simp [Delivery.verdict]
  | error e =>
    by_cases hbelow : requeues + 1 < limit <;> simp [Delivery.verdict, hbelow]

/-- **What is attempted after a step was begun by this very step, or attempted before it**, and the step does
not end the work on it. -/
theorem asking_of_step (hstep : Step settings s m t marks) {c : Call Outcome}
    (hstage : t.stage? u = some (.asking c)) :
    m = .begin u ∨ m ≠ .begin u ∧ m ≠ .done u ∧ ∃ c', s.stage? u = some (.asking c') := by
  -- a worker that gets something has it fresh in hand
  have hasked : (s.shift.ask .fresh).desks.get? u = some (.asking c) → s.stage? u = some (.asking c) := by
    intro hstage
    unfold Shift.ask at hstage
    cases hhand : s.queue.hand with
    | item x =>
      simp only [hhand, Table.get?_insert] at hstage
      split at hstage
      · exact absurd hstage (by simp)
      · exact hstage
    | _ => simpa only [hhand] using hstage
  cases hstep with
  | take w later hwaiting hfree => exact .inr ⟨by simp, by simp, c, hasked hstage⟩
  | rest hwaiting hfree => exact .inr ⟨by simp, by simp, c, hasked hstage⟩
  | begin w hfresh hgoing =>
    obtain ⟨rfl, -⟩ | ⟨hw, hstage⟩ := asking_of_turn hstage
    · exact .inl rfl
    · exact .inr ⟨by simpa using hw, by simp, c, hstage⟩
  | answer w a q next hasking hgoing =>
    obtain ⟨rfl, -⟩ | ⟨hw, hstage⟩ := asking_of_turn hstage
    · exact .inr ⟨by simp, by simp, _, hasking⟩
    · exact .inr ⟨by simp, by simp, c, hstage⟩
  | done w hsettled =>
    have hw : w ≠ u := by
      rintro rfl
      have hnone : (s.shift.desks.erase w).get? w = none := by simp [Table.get?_erase]
      exact absurd (hnone.symm.trans hstage) (by simp)
    exact .inr ⟨by simp, by simpa using hw, c, (stage_done_of_ne hw).symm.trans hstage⟩
  | finish w | fail w | readd w | refuse w | abandon w =>
    obtain ⟨-, hnew⟩ | ⟨hw, hstage⟩ := asking_of_turn hstage
    · exact absurd hnew (by simp)
    · exact .inr ⟨by simp, by simp, c, hstage⟩
  | _ => exact .inr ⟨by simp, by simp, c, hstage⟩

/-- The attempt at an update in hand began in the run, and has not been left since. -/
theorem begun_of_asking {ms : List Move} (hl : (machine settings).legal (start settings) ms = true)
    {c : Call Outcome} (hstage : ((machine settings).run (start settings) ms).stage? u = some (.asking c)) :
    ∃ earlier during, ms = earlier ++ .begin u :: during ∧ .begin u ∉ during ∧ .done u ∉ during := by
  induction ms using List.reverseRecOn generalizing c with
  | nil => exact absurd (show none = some (Handling.asking c) from hstage) (by simp)
  | append_singleton ms m ih =>
    obtain ⟨hl, ha⟩ := ((machine settings).legal_append _ _ _).mp hl
    obtain ⟨ha, -⟩ := ((machine settings).legal_cons _ _ _).mp ha
    rw [Machine.run_append] at hstage
    obtain rfl | ⟨hbegin, hdone, c', hbefore⟩ := asking_of_step (step_of_allows ha) hstage
    · exact ⟨ms, [], rfl, List.not_mem_nil, List.not_mem_nil⟩
    · obtain ⟨earlier, during, rfl, hbegins, hdones⟩ := ih hl hbefore
      refine ⟨earlier, during ++ [m], by simp, ?_, ?_⟩
      · simpa [hbegins] using hbegin.symm
      · simpa [hdones] using hdone.symm

/-- A step that judges an update settles the attempt at it. -/
theorem settles_of_judged (hstep : Step settings s m t marks) {v : Delivery.Verdict}
    (hv : v ∈ verdictsOn u marks) : m = .settle u ∧ ∃ c, s.stage? u = some (.asking c) := by
  cases hstep with
  | begin w hfresh hgoing =>
    exact absurd hv ((verdictsOn_requestMarks u w (dispatch w).2).symm ▸ List.not_mem_nil)
  | answer w a q next hasking hgoing => exact absurd hv (by simp [verdictsOn_requestMarks])
  | finish w o v' hover | fail w o hover =>
    by_cases hw : w = u
    · subst hw
      exact ⟨rfl, _, hover⟩
    · exact absurd hv (by simp [verdictsOn, hw])
  | _ => exact absurd hv (by simp [verdictsOn])

/-- **Earned**: after some moves a verdict on an update goes by what carrying the update out has come to, with
the answers since the last attempt at it began. -/
def Earned (u : Update) (before : List Move) (v : Delivery.Verdict) : Prop :=
  ∃ earlier during result, before = earlier ++ .begin u :: during ∧
    .begin u ∉ during ∧ .done u ∉ during ∧
      ((carryOut u).hear (answersTo u during)).result? = some result ∧ (v = .applied ↔ result = .ok ())

/-- **Every verdict is earned**, in every run. -/
theorem earned_of_judged {before after : List Move}
    (hl : (machine settings).legal (start settings) (before ++ m :: after) = true) {v : Delivery.Verdict}
    (hv : v ∈ verdictsOn u (act settings ((machine settings).run (start settings) before) m).2) :
    Earned u before v := by
  obtain ⟨hbefore, hrest⟩ := ((machine settings).legal_append _ _ _).mp hl
  obtain ⟨ha, -⟩ := ((machine settings).legal_cons _ _ _).mp hrest
  obtain ⟨rfl, c, hstage⟩ := settles_of_judged (step_of_allows ha) hv
  obtain ⟨earlier, during, rfl, hbegins, hdones⟩ := begun_of_asking hbefore hstage
  -- the attempt ends with the move that makes the verdict
  have hattempt : (machine settings).legal (start settings)
      (earlier ++ .begin u :: (during ++ [.settle u])) = true := by
    have hsplit : earlier ++ .begin u :: (during ++ [.settle u]) =
        (earlier ++ .begin u :: during) ++ [.settle u] := by simp
    rw [hsplit, Machine.legal_append, Machine.legal_cons]
    exact ⟨hbefore, ha, rfl⟩
  obtain ⟨-, hverdicts⟩ := attempt_follows hattempt (by simpa using hdones)
  obtain ⟨result, hresult, rfl⟩ := hverdicts v (by
    rw [history, ← List.cons_append, Machine.log_append, verdictsOn_append, ← Machine.run_append]
    simpa using .inr hv)
  have hanswers : answersTo u (during ++ [.settle u]) = answersTo u during := by
    simp [answersTo]
  rw [hanswers] at hresult
  exact ⟨earlier, during, result, rfl, hbegins, hdones, hresult, verdict_eq_applied_iff _ _ result⟩

end BorderSync.Station
