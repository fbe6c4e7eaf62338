/-
# BorderSync.Proofs.Station.Ends -- how every update ends when a station is stopped

A run that has ended has left nothing behind: every update that was accepted has succeeded, was given up
after its last attempt, was abandoned when patience had run out, or was refused. The last of these comes
from an attempt that fails while the queue is being drained. The report says that the update is tried
again, but a queue that is shut down does not take it.
-/
import BorderSync.Proofs.Station.Retries

namespace BorderSync.Station

open Border Event

variable {settings : Settings} {s t : Station} {u : Update} {m : Move} {ms : List Move}
  {marks l before after : List Mark}

theorem mem_fates {f : Fate} : f ∈ fates u l ↔ ∃ k ∈ l, k.about? = some (u, f) := by
  simp only [fates, List.mem_filterMap]
  constructor
  · rintro ⟨⟨w, g⟩, ⟨k, hk, habout⟩, hf⟩
    by_cases hw : w = u
    · subst hw
      simp only [if_true, Option.some.injEq] at hf
      exact ⟨k, hk, hf ▸ habout⟩
    · exact absurd hf (by simp [hw])
  · rintro ⟨k, hk, habout⟩
    exact ⟨(u, f), ⟨k, hk, habout⟩, by simp⟩

/-! ## Busy updates -/

/-- **Busy**: an update is on its way to a worker, or a worker is not yet done with it. -/
def View.Busy (v : View) : Prop :=
  0 < v.load ∨ ∃ h, v.stage = some h ∧ h ≠ .settled

/-- An update stays busy until its way ends. -/
theorem Turn.busy {v v' : View} {fs : List Fate} (h : Turn settings s v fs v') (hbusy : v.Busy) :
    v'.Busy ∨ ∃ f ∈ fs, f.ends = true := by
  cases h with
  | aside v => exact .inl hbusy
  | accept hopen hle hle' hpos => exact .inl (.inl hpos)
  | land hle hpos => exact .inl (hbusy.imp_left hpos)
  | take => exact .inl (.inr ⟨.fresh, rfl, by simp⟩)
  | begin call hgoing => exact .inl (.inr ⟨.asking call, rfl, by simp⟩)
  | answer call call' => exact .inl (.inr ⟨.asking call', rfl, by simp⟩)
  | finish call v hv =>
    refine .inr ⟨.judged v, List.mem_singleton_self _, ?_⟩
    rcases hv with rfl | ⟨rfl, -⟩ <;> rfl
  | fail call hbelow => exact .inl (.inr ⟨_, rfl, by simp⟩)
  | readd wait hopen hle hle' hpos => exact .inl (.inl hpos)
  | refuse wait hclosed => exact .inr ⟨.refused, List.mem_singleton_self _, rfl⟩
  | abandon h hundone hstopped => exact .inr ⟨.abandoned, List.mem_singleton_self _, rfl⟩
  | done =>
    rcases hbusy with hload | ⟨h, hstage, hgoing⟩
    · exact .inl (.inl hload)
    · exact absurd (Option.some.inj hstage).symm hgoing

/-- An update that is accepted is on its way. -/
theorem Turn.load_of_accepted {v v' : View} {fs : List Fate} (h : Turn settings s v fs v')
    (haccepted : .accepted ∈ fs) : 0 < v'.load := by
  cases h with
  | accept hopen hle hle' hpos => exact hpos
  | _ => exact absurd haccepted (by simp)

/-- A run that has ended is done with every update. -/
theorem not_busy_of_ended (h : s.Sound settings) (hended : s.shift.phase = .ended) (u : Update) :
    ¬(s.view u).Busy := by
  have hidle := h.shift.idle (.inr hended)
  obtain ⟨hload, hhands⟩ := h.shift.crew.floor.of_isIdle (p := (u == ·)) hidle
  rintro (hpos | ⟨handling, hstage, -⟩)
  · exact absurd hpos (by rw [view, hload]; exact Nat.lt_irrefl 0)
  · exact absurd (h.shift.in_hand hstage) (by rw [hhands u]; exact Bool.false_ne_true)

/-- **What an acceptance opens is answered** for the same update, if it is not open in the end. -/
theorem answered_of_accepted {Open : View → Prop} {answers : Fate → Prop} (hfits : settings.Fits)
    (turn : ∀ {s : Station} {v v' : View} {fs : List Fate}, Turn settings s v fs v' → Open v →
      Open v' ∨ ∃ f ∈ fs, answers f)
    (opens : ∀ {v : View}, 0 < v.load → Open v)
    (h : s.Sound settings) (hl : (machine settings).legal s ms = true)
    (hdone : ¬Open (((machine settings).run s ms).view u))
    (hsplit : history settings s ms = before ++ .accepted u :: after) :
    ∃ f ∈ fates u after, answers f := by
  have hanswer := (machine settings).log_answers (fun s m => (act settings s m).2)
    (fun s => Open (s.view u)) (fun k => ∃ f, k.about? = some (u, f) ∧ answers f)
    (P := Sound settings) (fun s m hs ha => hs.next m ha)
    (fun s m hs ha hopen => ?_) (fun s m hs ha hmem => ?_) h hl hsplit
  · obtain ⟨k, hk, f, habout, hanswers⟩ := hanswer.resolve_left hdone
    exact ⟨f, mem_fates.mpr ⟨k, hk, habout⟩, hanswers⟩
  · rcases turn (turn_of_step hfits hs (step_of_allows ha) u) hopen with hopen | ⟨f, hf, hanswers⟩
    · exact .inl hopen
    · obtain ⟨k, hk, habout⟩ := mem_fates.mp hf
      exact .inr ⟨k, hk, f, habout, hanswers⟩
  · exact opens ((turn_of_step hfits hs (step_of_allows ha) u).load_of_accepted
      (mem_fates.mpr ⟨.accepted u, hmem, rfl⟩))

/-- **Every accepted update ends**, if it is not busy at the end of the run. -/
theorem ends_of_accepted (hfits : settings.Fits) (h : s.Sound settings)
    (hl : (machine settings).legal s ms = true)
    (hdone : ¬(((machine settings).run s ms).view u).Busy)
    (hsplit : history settings s ms = before ++ .accepted u :: after) :
    ∃ f ∈ fates u after, f.ends = true :=
  answered_of_accepted hfits (fun h hbusy => h.busy hbusy) .inl h hl hdone hsplit

/-! ## Counting failures -/

/-- Failures that are counted after something has happened. -/
def streakAfter (k : Nat) : Fate → Nat
  | .judged (.again _) => k + 1
  | .judged _ => 0
  | .abandoned => 0
  | _ => k

/-- **Streak**: failures since an update last succeeded, was given up or was abandoned. -/
def streak (fs : List Fate) : Nat :=
  fs.foldl streakAfter 0

theorem Turn.streak {v v' : View} {fs : List Fate} (h : Turn settings s v fs v') :
    v'.requeues = fs.foldl streakAfter v.requeues := by
  cases h with
  | finish call v hv => rcases hv with rfl | ⟨rfl, -⟩ <;> rfl
  | _ => rfl

/-- What is counted of an update is its streak. -/
theorem requeues_eq_streak (hfits : settings.Fits)
    (hl : (machine settings).legal (start settings) ms = true) :
    ((machine settings).run (start settings) ms).queue.requeues u =
      streak (fates u (history settings (start settings) ms)) := by
  refine history_keeps (P := fun s l => (s.view u).requeues = streak (fates u l))
    (fun s l m t marks hs hcount hstep => ?_) rfl hl
  rw [fates_append, streak, List.foldl_append, ← streak, ← hcount]
  exact (turn_of_step hfits hs hstep u).streak

/-- Failures are forgotten when the way of an update ends, unless it is refused. -/
theorem Turn.counted {v v' : View} {fs : List Fate} (h : Turn settings s v fs v')
    (hcounted : 0 < v.requeues → v.Busy) (hrefused : .refused ∉ fs) :
    0 < v'.requeues → v'.Busy := by
  cases h with
  | refuse wait hclosed => exact absurd (List.mem_singleton_self _) hrefused
  | finish call v hv => exact fun h => absurd h (Nat.lt_irrefl 0)
  | abandon handling hundone hstopped => exact fun h => absurd h (Nat.lt_irrefl 0)
  | fail call hbelow => exact fun _ => .inr ⟨_, rfl, by simp⟩
  | aside v => exact hcounted
  | accept hopen hle hle' hpos => exact fun _ => .inl hpos
  | land hle hpos => exact fun h => (hcounted h).imp_left hpos
  | take => exact fun _ => .inr ⟨.fresh, rfl, by simp⟩
  | begin call hgoing => exact fun _ => .inr ⟨_, rfl, by simp⟩
  | answer call call' => exact fun _ => .inr ⟨_, rfl, by simp⟩
  | readd wait hopen hle hle' hpos => exact fun _ => .inl hpos
  | done =>
    refine fun h => .inl ((hcounted h).resolve_right ?_)
    rintro ⟨handling, hstage, hgoing⟩
    exact hgoing (Option.some.inj hstage).symm

/-- What is counted is busy, as long as it was never refused. -/
theorem busy_of_counted (hfits : settings.Fits)
    (hl : (machine settings).legal (start settings) ms = true)
    (hrefused : .refused ∉ fates u (history settings (start settings) ms)) :
    0 < ((machine settings).run (start settings) ms).queue.requeues u →
      (((machine settings).run (start settings) ms).view u).Busy := by
  refine history_keeps
    (P := fun s l => .refused ∉ fates u l → 0 < (s.view u).requeues → (s.view u).Busy)
    (fun s l m t marks hs hcounted hstep hnever => ?_) (fun _ h => absurd h (Nat.lt_irrefl 0)) hl hrefused
  rw [fates_append, List.mem_append, not_or] at hnever
  exact (turn_of_step hfits hs hstep u).counted (hcounted hnever.1) hnever.2

end BorderSync.Station
