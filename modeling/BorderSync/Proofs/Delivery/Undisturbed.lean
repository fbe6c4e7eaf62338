/-
# BorderSync.Proofs.Delivery.Undisturbed -- a copy that is not disturbed after its list

From the list of an update on, what is left for its attempt makes up what it wants, as long as nobody else
writes to the place. Every attempt lists a place before it writes there. So a single worker, who has one
update in hand at a time, disturbs nobody between two lists of a place.
-/
import BorderSync.Proofs.Delivery.TakenUp

namespace BorderSync.Outbound

open Border Event
open Endpoint (Location)

variable {settings : Settings} {s t : Outbound} {m : Move} {marks : List Mark} {context : Context} {u : Update} {l : Location}

/-! ## From a list to the end -/

/-- A step grants one request at most. -/
theorem length_marks_le (hstep : Step settings s m t marks) : marks.length ≤ 1 := by
  cases hstep with
  | answer u q next r id hstage hr hgrants => exact Nat.le_refl 1
  | _ => exact Nat.zero_le 1

/-- A list in the history of a run is made by one of its moves. -/
theorem listed_split {ms : List Move} (hlegal : (machine settings).legal s ms = true)
    {before after : List Mark} (h : history settings s ms = before ++ .listed u l :: after) :
    ∃ ms₁ m ms₂, ms = ms₁ ++ m :: ms₂ ∧ (machine settings).legal s ms₁ = true ∧
      Step settings ((machine settings).run s ms₁) m
        (next settings ((machine settings).run s ms₁) m) [.listed u l] ∧
      (machine settings).legal (next settings ((machine settings).run s ms₁) m) ms₂ = true ∧
      after = history settings (next settings ((machine settings).run s ms₁) m) ms₂ := by
  obtain ⟨ms₁, m, ms₂, l₁, l₂, rfl, hmarks, rfl⟩ := (machine settings).log_split h
  obtain ⟨hlegal₁, hlegal₂⟩ := ((machine settings).legal_append _ _ _).mp hlegal
  obtain ⟨ha, hlegal₂⟩ := ((machine settings).legal_cons _ _ _).mp hlegal₂
  have hstep := step_of_allows ha
  rw [hmarks] at hstep
  -- the move leaves one mark at most, so that nothing stands beside the list
  have hlength := length_marks_le hstep
  rw [List.length_append, List.length_cons] at hlength
  obtain rfl : l₁ = [] := List.length_eq_zero_iff.mp (by omega)
  obtain rfl : l₂ = [] := List.length_eq_zero_iff.mp (by omega)
  refine ⟨ms₁, m, ms₂, rfl, hlegal₁, hstep, hlegal₂, ?_⟩
  unfold history at h
  rw [(machine settings).log_append, Machine.log_cons, hmarks, List.append_nil] at h
  exact (List.cons.inj (List.append_cancel_left h)).2.symm

/-- **Settles**: the servers hold what an update wants, or what is left for the attempt at it leads
there. -/
def Settles (context : Context) (u : Update) (l : Location) (s : Outbound) : Prop :=
  s.Nearing context u l ∨ ¬ s.IsWorking context u ∧ s.Holds u l

/-- Only the stage of the update and the place of its upstream matter. -/
theorem Settles.congr {t : Outbound} (h : s.Settles context u l)
    (hstage : t.stages.get? u = s.stages.get? u) (hshelf : t.shelf l = s.shelf l) :
    t.Settles context u l := by
  unfold Settles Nearing IsWorking Holds at h ⊢
  rw [hstage, hshelf]
  exact h

section Run

variable (hkind : u.kind ≠ .deleted) (hcontext : Manager.context? u.clientType = some context)
  (hl : (Client.new u.host).serversAt context u.upstream none = .ok l)

include hkind hcontext hl

/-- The servers come to hold what an update wants as long as the attempt at it is the only one that
writes. -/
theorem settles_step (h : s.Tracked context u) (hs : s.Settles context u l)
    (hstep : Step settings s m t marks) (halone : ∀ w, .wrote w l ∈ marks → w = u) :
    t.Settles context u l := by
  cases effect hkind hcontext hl h.sound h.onTrack hstep with
  | aside hmarks hstage hshelf => exact hs.congr hstage hshelf
  | foreign w hw hstage => exact absurd (halone w (List.mem_singleton_self _)) hw
  | taken hbefore hafter hshelf =>
    -- a new attempt at the same update has nothing to do with the last one
    rcases hs with ⟨posts, deletions, changes, hstage, -⟩ | ⟨-, hholds⟩
    · exact absurd (hbefore.symm.trans hstage) (by simp)
    · refine .inr ⟨?_, fun a => hshelf ▸ hholds a⟩
      rintro ⟨posts, deletions, changes, hstage⟩
      exact Stage.opening_ne_working hkind hcontext hl (Option.some.inj (hafter.symm.trans hstage))
  | listed hbefore hafter => exact .inl hafter
  | wrote hbefore hafter hnearing =>
    rcases hs with hnear | ⟨hnot, -⟩
    · exact .inl (hnearing hnear)
    · exact absurd hbefore hnot
  | finished hbefore hafter hholds =>
    rcases hs with hnear | ⟨hnot, -⟩
    · refine .inr ⟨?_, hholds hnear⟩
      rintro ⟨posts, deletions, changes, hstage⟩
      exact absurd (hafter.symm.trans hstage) (by simp [Stage.working])
    · exact absurd hbefore hnot
  | gone hbefore hafter hshelf =>
    rcases hs with ⟨posts, deletions, changes, hstage, -⟩ | ⟨-, hholds⟩
    · exact absurd (hbefore.symm.trans hstage) (by simp [Stage.working])
    · refine .inr ⟨?_, fun a => hshelf ▸ hholds a⟩
      rintro ⟨posts, deletions, changes, hstage⟩
      exact absurd (hafter.symm.trans hstage) (by simp)

/-- Alone after its list, an update is what the servers hold in the end. -/
theorem holds_of_settles (h : s.Tracked context u) (hs : s.Settles context u l) {ms : List Move}
    (hlegal : (machine settings).legal s ms = true)
    (hidle : ((machine settings).run s ms).isIdle = true)
    (halone : ∀ w, .wrote w l ∈ history settings s ms → w = u) :
    ((machine settings).run s ms).Holds u l := by
  induction ms generalizing s with
  | nil =>
    rcases hs with ⟨posts, deletions, changes, hstage, -⟩ | ⟨-, hholds⟩
    · exact absurd ((not_isComing_of_isIdle h.sound hidle).2.symm.trans hstage) (by simp)
    · exact hholds
  | cons m ms ih =>
    obtain ⟨ha, hlegal⟩ := ((machine settings).legal_cons s m ms).mp hlegal
    have hstep := step_of_allows ha
    refine ih (h.step hkind hcontext hl hstep) ?_ hlegal hidle ?_
    · exact settles_step hkind hcontext hl h hs hstep fun w hw => halone w (List.mem_append_left _ hw)
    · exact fun w hw => halone w (List.mem_append_right _ hw)

/-- **A list after which nobody else writes decides.** -/
theorem holds_of_listed (h : s.Tracked context u) {ms : List Move}
    (hlegal : (machine settings).legal s ms = true)
    (hidle : ((machine settings).run s ms).isIdle = true) {before after : List Mark}
    (hlisted : history settings s ms = before ++ .listed u l :: after)
    (halone : ∀ w, .wrote w l ∈ after → w = u) : ((machine settings).run s ms).Holds u l := by
  obtain ⟨ms₁, m, ms₂, rfl, hlegal₁, hstep, hlegal₂, rfl⟩ := listed_split hlegal hlisted
  have hbefore := h.run hkind hcontext hl hlegal₁
  rw [(machine settings).run_append, Machine.run_cons] at hidle ⊢
  cases effect hkind hcontext hl hbefore.sound hbefore.onTrack hstep with
  | aside hnot hstage hshelf => exact absurd (List.mem_singleton_self _) hnot
  | listed hopening hnear =>
    exact holds_of_settles hkind hcontext hl (hbefore.step hkind hcontext hl hstep) (.inl hnear)
      hlegal₂ hidle halone

end Run

/-! ## A single worker -/

/-- Nobody but the attempt at one update writes to a place before listing it. -/
def Heeded (u : Update) (l : Location) (s : Outbound) : Prop :=
  ∀ w, w ≠ u → ∀ call, s.stages.get? w = some (.asking call) → call.Heeds l

/-- An update whose stage does not write is no matter. -/
theorem Heeded.insert (hs : s.Heeded u l) {v : Update} {stage : Stage}
    (ht : t.stages = s.stages.insert v stage)
    (hstage : ∀ call, stage = .asking call → v ≠ u → call.Heeds l) : t.Heeded u l := by
  intro w hw call hcall
  rw [ht, Table.get?_insert] at hcall
  by_cases hwv : w = v
  · rw [if_pos (by simpa using hwv)] at hcall
    exact hstage call (Option.some.inj hcall) (hwv ▸ hw)
  · rw [if_neg (by simpa using hwv)] at hcall
    exact hs w hw call hcall

/-- Others write to a place only after one of them has listed it. -/
theorem heeded_step (hs : s.Heeded u l) (hstep : Step settings s m t marks) :
    (∃ w, .listed w l ∈ marks) ∨ t.Heeded u l ∧ ∀ w, .wrote w l ∈ marks → w = u := by
  cases hstep with
  | take v later hwaiting hfree =>
    -- whoever is new lists first
    refine .inr ⟨hs.insert rfl ?_, fun w hw => absurd hw List.not_mem_nil⟩
    rintro call hcall -
    rw [← Stage.asking.inj hcall]
    exact (dispatch_listsFirst v).heeds l
  | answer v q after r id hstage hr hgrants =>
    have hnext : ∀ t : Outbound, t.stages = s.stages.insert v (.asking (after (.ok r))) →
        (v ≠ u → (after (.ok r)).Heeds l) → t.Heeded u l := fun t ht hheeds =>
      hs.insert ht fun call hcall hv => Stage.asking.inj hcall ▸ hheeds hv
    by_cases hv : v = u
    · refine .inr ⟨hnext _ rfl fun hne => absurd hv hne, fun w hw => ?_⟩
      cases hwrites : q.writes <;> simp [hwrites] at hw
      exact hw.1.trans hv
    · have hheeds := hs v hv _ hstage
      unfold Call.Heeds at hheeds
      cases hwrites : q.writes with
      | true =>
        rw [hwrites, if_pos rfl] at hheeds
        refine .inr ⟨hnext _ rfl fun _ => hheeds.2 _, fun w hw => ?_⟩
        rw [if_pos rfl, List.mem_singleton, Mark.wrote.injEq] at hw
        exact absurd hw.2.symm hheeds.1
      | false =>
        rw [hwrites, if_neg Bool.false_ne_true] at hheeds
        rcases hheeds with hplace | hheeds
        · exact .inl ⟨v, by simp [hplace]⟩
        · exact .inr ⟨hnext _ rfl fun _ => hheeds _, fun w hw => by simp at hw⟩
  | settle v o hstage =>
    exact .inr ⟨hs.insert rfl (by simp), fun w hw => absurd hw List.not_mem_nil⟩
  | fail v o hstage hfailed wait =>
    exact .inr ⟨hs.insert rfl (by simp), fun w hw => absurd hw List.not_mem_nil⟩
  | readd v wait hstage =>
    exact .inr ⟨hs.insert rfl (by simp), fun w hw => absurd hw List.not_mem_nil⟩
  | done v hstage =>
    refine .inr ⟨?_, fun w hw => absurd hw List.not_mem_nil⟩
    intro w hw call hcall
    have herase : (s.stages.erase v).get? w = some (.asking call) := hcall
    rw [Table.get?_erase] at herase
    split at herase
    · exact absurd herase (by simp)
    · exact hs w hw call herase
  | _ => exact .inr ⟨hs, fun w hw => absurd hw List.not_mem_nil⟩

/-- Others do not write to a place that nobody lists. -/
theorem alone_of_not_listed {ms : List Move} (hlegal : (machine settings).legal s ms = true)
    (hs : s.Heeded u l) (hnone : ∀ w, .listed w l ∉ history settings s ms) {w : Update}
    (hw : .wrote w l ∈ history settings s ms) : w = u := by
  induction ms generalizing s with
  | nil => exact absurd hw List.not_mem_nil
  | cons m ms ih =>
    obtain ⟨ha, hlegal⟩ := ((machine settings).legal_cons s m ms).mp hlegal
    rcases heeded_step hs (step_of_allows ha) with ⟨v, hv⟩ | ⟨hnext, halone⟩
    · exact absurd (List.mem_append_left _ hv) (hnone v)
    · rcases List.mem_append.mp hw with hhere | hlater
      · exact halone w hhere
      · exact ih hlegal hnext (fun v hv => hnone v (List.mem_append_right _ hv)) hlater

/-- No more is in hand than there are workers. -/
theorem length_hands_step (hstep : Step settings s m t marks)
    (h : s.floor.hands.length ≤ Nat.max settings.outbound.threads 1) :
    t.floor.hands.length ≤ Nat.max settings.outbound.threads 1 := by
  cases hstep with
  | take u later hwaiting hfree =>
    show s.floor.take.hands.length ≤ _
    rw [WorkQueue.Floor.hands_take hwaiting, List.length_append, List.length_singleton]
    exact hfree
  | done u hstage => exact Nat.le_trans List.eraseP_sublist.length_le h
  | _ => exact h

/-- A single worker has nothing else in hand. -/
theorem heeded_of_single (hs : s.Sound) (hone : s.floor.hands.length ≤ 1)
    (hu : (s.stages.get? u).isSome = true) : s.Heeded u l := by
  intro w hw call hcall
  have hmem : ∀ v, (s.stages.get? v).isSome = true → v ∈ s.floor.hands := fun v hv =>
    List.contains_iff_mem.mp (hs.in_hand v ▸ hv)
  have hw' := hmem w (by rw [hcall, Option.isSome_some])
  have hu' := hmem u hu
  match hhands : s.floor.hands with
  | [] => exact absurd (hhands ▸ hu') List.not_mem_nil
  | [v] =>
    rw [hhands, List.mem_singleton] at hw' hu'
    exact absurd (hw'.trans hu'.symm) hw
  | _ :: _ :: _ =>
    rw [hhands, List.length_cons, List.length_cons] at hone
    omega

/-- **With a single worker the last list decides.** -/
theorem holds_of_last_list (hkind : u.kind ≠ .deleted)
    (hcontext : Manager.context? u.clientType = some context)
    (hl : (Client.new u.host).serversAt context u.upstream none = .ok l) (h : s.Tracked context u)
    (hhands : s.floor.hands.length ≤ Nat.max settings.outbound.threads 1)
    (hone : settings.outbound.threads ≤ 1) {ms : List Move}
    (hlegal : (machine settings).legal s ms = true)
    (hidle : ((machine settings).run s ms).isIdle = true) {before after : List Mark}
    (hlisted : history settings s ms = before ++ .listed u l :: after)
    (hlast : ∀ w, .listed w l ∉ after) : ((machine settings).run s ms).Holds u l := by
  refine holds_of_listed hkind hcontext hl h hlegal hidle hlisted ?_
  intro w hw
  obtain ⟨ms₁, m, ms₂, rfl, hlegal₁, hstep, hlegal₂, rfl⟩ := listed_split hlegal hlisted
  have hbefore := h.run hkind hcontext hl hlegal₁
  have hcrew := (machine settings).run_keeps
    (P := fun t => t.floor.hands.length ≤ Nat.max settings.outbound.threads 1)
    (fun _ m h ha => length_hands_step (step_of_allows ha) h) hhands hlegal₁
  -- at its list this update is the only one in hand
  have hsingle := Nat.le_trans (length_hands_step hstep hcrew) (Nat.max_le.mpr ⟨hone, Nat.le_refl 1⟩)
  cases effect hkind hcontext hl hbefore.sound hbefore.onTrack hstep with
  | aside hnot hstage hshelf => exact absurd (List.mem_singleton_self _) hnot
  | listed hopening hnear =>
    obtain ⟨posts, deletions, changes, hstage, -⟩ := hnear
    have hheeded := heeded_of_single (l := l) (hbefore.sound.step hstep) hsingle
      (Option.isSome_iff_exists.mpr ⟨_, hstage⟩)
    exact alone_of_not_listed hlegal₂ hheeded hlast hw

end BorderSync.Outbound
