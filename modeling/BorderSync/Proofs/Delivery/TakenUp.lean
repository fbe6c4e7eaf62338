/-
# BorderSync.Proofs.Delivery.TakenUp -- a copy that was made is taken up, and lists its upstream

A copy waits to be scheduled, then to land, then in the queue; a worker takes it up and lists its
upstream first. Nothing else can happen to it, so that it has listed once everything is done.
-/
import BorderSync.Proofs.Delivery.Attempts

namespace BorderSync.Outbound

open Border Event
open Endpoint (Location)

variable {settings : Settings} {s t : Outbound} {m : Move} {marks : List Mark} {context : Context} {u : Update} {l : Location}

/-! ## On the way to a worker -/

/-- **Coming**: the update is on its way to a worker, or the attempt at it has just begun. -/
def IsComing (u : Update) (s : Outbound) : Prop :=
  u ∈ s.unsent ∨ 0 < s.floor.load (u == ·) ∨ s.stages.get? u = some (.opening u)

/-- A copy that is not scheduled stays until it is; then the queue accepts it, if it has a host. -/
theorem unsent_step (hs : s.Sound) (hhost : u.host ≠ "") (hstep : Step settings s m t marks)
    (h : u ∈ s.unsent) : u ∈ t.unsent ∨ 0 < t.floor.load (u == ·) := by
  cases hstep with
  | translate cache c tokens made => exact .inl (List.mem_append_left _ h)
  | drop w r hnone =>
    have hw : u ≠ w := fun heq => hhost (heq ▸ hnone)
    exact .inl ((List.mem_erase_of_ne hw).mpr h)
  | schedule w r delay hsome =>
    by_cases hw : u = w
    · subst hw
      exact .inr ((WorkQueue.Floor.load_addAfter (coarse_beq u) s.floor hs.accepting u delay).2.2
        BEq.rfl)
    · exact .inl ((List.mem_erase_of_ne hw).mpr h)
  | _ => exact .inl h

/-- What was accepted stays so until a worker takes it up. -/
theorem load_step (hs : s.Sound) (hstep : Step settings s m t marks)
    (h : 0 < s.floor.load (u == ·)) :
    0 < t.floor.load (u == ·) ∨ t.stages.get? u = some (.opening u) := by
  have hp : Coarse (u == ·) := coarse_beq u
  cases hstep with
  | schedule w r delay hhost =>
    exact .inl (Nat.lt_of_lt_of_le h
      (WorkQueue.Floor.load_addAfter hp s.floor hs.accepting w delay).1)
  | readd w wait hstage =>
    exact .inl (Nat.lt_of_lt_of_le h
      (WorkQueue.Floor.load_addAfter hp s.floor hs.accepting w wait).1)
  | land w hcoming => exact .inl ((WorkQueue.Floor.load_land hp s.floor hcoming).2 h)
  | take w later hwaiting hfree =>
    have hload := WorkQueue.Floor.load_take hp hs.floor.queue hwaiting
    by_cases hwu : w = u
    · subst hwu
      exact .inr ((Table.get?_insert _ _ _ _).trans (if_pos BEq.rfl))
    · refine .inl ?_
      show 0 < s.floor.take.load (u == ·)
      rw [beq_eq_false_iff_ne.mpr (Ne.symm hwu), Bool.toNat_false] at hload
      omega
  | _ => exact .inl h

/-- Nothing is coming once everything is done. -/
theorem not_isComing_of_isIdle (hs : s.Sound) (hidle : s.isIdle = true) :
    ¬ s.IsComing u ∧ s.stages.get? u = none := by
  simp only [isIdle, Bool.and_eq_true, List.isEmpty_iff] at hidle
  obtain ⟨hunsent, hqueue⟩ := hidle
  obtain ⟨hload, hhands⟩ := hs.floor.of_isIdle (p := (u == ·)) hqueue
  have hstage : s.stages.get? u = none := by
    rw [← Option.not_isSome_iff_eq_none, hs.in_hand, hhands]
    exact Bool.false_ne_true
  refine ⟨?_, hstage⟩
  rintro (hmem | hpos | hopening)
  · rw [hunsent] at hmem
    exact List.not_mem_nil hmem
  · omega
  · exact absurd (hstage.symm.trans hopening) (by simp)

/-! ## One update through a run -/

/-- **Tracked**: the outbound side is sound, and an update is on track. -/
structure Tracked (context : Context) (u : Update) (s : Outbound) : Prop where
  sound : s.Sound
  onTrack : Stage.OnTrack context u (s.stages.get? u)

theorem Tracked.start (context : Context) (u : Update) (settings : Settings)
    {shelves : Table Location Shelf} (h : ∀ l, ((shelves.get? l).getD []).ids.Nodup) :
    (Outbound.start settings shelves).Tracked context u :=
  ⟨.start settings h, .away⟩

section Run

variable (hkind : u.kind ≠ .deleted) (hcontext : Manager.context? u.clientType = some context)
  (hl : (Client.new u.host).serversAt context u.upstream none = .ok l)

include hkind hcontext hl

theorem Tracked.step (h : s.Tracked context u) (hstep : Step settings s m t marks) :
    t.Tracked context u :=
  ⟨h.sound.step hstep, (effect hkind hcontext hl h.sound h.onTrack hstep).onTrack h.onTrack⟩

theorem Tracked.run (h : s.Tracked context u) {ms : List Move}
    (hlegal : (machine settings).legal s ms = true) :
    ((machine settings).run s ms).Tracked context u :=
  (machine settings).run_keeps (P := Tracked context u)
    (fun _ _ h ha => h.step hkind hcontext hl (step_of_allows ha)) h hlegal

/-- An update that is coming goes on coming until it has listed. -/
theorem isComing_step (h : s.Tracked context u) (hhost : u.host ≠ "") (hc : s.IsComing u)
    (hstep : Step settings s m t marks) : t.IsComing u ∨ .listed u l ∈ marks := by
  rcases hc with hunsent | hload | hopening
  · exact .inl ((unsent_step h.sound hhost hstep hunsent).imp_right .inl)
  · exact .inl (.inr (load_step h.sound hstep hload))
  · have hnot : ¬ s.IsWorking context u := by
      rintro ⟨posts, deletions, changes, hworking⟩
      exact Stage.opening_ne_working hkind hcontext hl (Option.some.inj (hopening.symm.trans hworking))
    cases effect hkind hcontext hl h.sound h.onTrack hstep with
    | aside hmarks hstage hshelf => exact .inl (.inr (.inr (hstage.trans hopening)))
    | foreign w hw hstage => exact .inl (.inr (.inr (hstage.trans hopening)))
    | taken hbefore hafter hshelf => exact .inl (.inr (.inr hafter))
    | listed hbefore hafter => exact .inr (List.mem_singleton_self _)
    | wrote hbefore hafter hnearing => exact absurd hbefore hnot
    | finished hbefore hafter hholds => exact absurd hbefore hnot
    | gone hbefore hafter hshelf => exact absurd (hopening.symm.trans hbefore) (by simp [Stage.opening])

/-- **A copy that was made has listed once everything is done.** -/
theorem listed_of_isIdle (h : s.Tracked context u) (hhost : u.host ≠ "") (hc : s.IsComing u)
    {ms : List Move} (hlegal : (machine settings).legal s ms = true)
    (hidle : ((machine settings).run s ms).isIdle = true) :
    .listed u l ∈ history settings s ms := by
  -- the invariant: the update is coming, or its list is in the log so far
  have hkept := (machine settings).log_keeps (l := [])
    (P := fun t marks => t.Tracked context u ∧ (t.IsComing u ∨ Mark.listed u l ∈ marks))
    (fun t before m ⟨ht, hbefore⟩ ha => ⟨ht.step hkind hcontext hl (step_of_allows ha), by
      rcases hbefore with hcoming | hlisted
      · exact (isComing_step hkind hcontext hl ht hhost hcoming (step_of_allows ha)).imp_right
          (List.mem_append_right _)
      · exact .inr (List.mem_append_left _ hlisted)⟩)
    ⟨h, .inl hc⟩ hlegal
  obtain ⟨htracked, hcoming | hlisted⟩ := hkept
  · exact absurd hcoming (not_isComing_of_isIdle htracked.sound hidle).1
  · exact hlisted

end Run

end BorderSync.Outbound
