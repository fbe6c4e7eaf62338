/-
# BorderSync.Proofs.Queue.Drained -- what a drain waits for

A drain shuts the queue down and waits until it is idle. It registers before it looks, others go on
meanwhile, and it may be called early or late; all the same it returns only when the queue is idle. From
then on the queue stays as it is: nobody can do anything to it any more, and every consumer goes without
an item. Until then the queue winds down.

The tasks that use a queue can do to it whatever the rules of the queue allow.
-/
import BorderSync.Proofs.Queue.Summons
import BorderSync.Proofs.Queue.WindDown

namespace BorderSync.WorkQueue

/-- It is in the middle of waiting for the end of the queue. -/
def Task.drains : Task → Bool
  | .calling .drains _ => true
  | .watching => true
  | .lingering => true
  | _ => false

namespace Lobby

variable {α : Type}

/-- Whose step it is. -/
def Move.actor : Move α → TaskId
  | .use t _ => t
  | .call t => t
  | .leave t => t
  | .ask t => t
  | .look t => t
  | .drain t => t
  | .watch t => t
  | .check t => t
  | .abandon t => t

/-- What a step is to the queue. -/
def Move.onFloor? : Move α → Option (WorkQueue.Move α)
  | .use _ m => some m
  | .look _ => some .take
  | .drain _ => some .shutDown
  | _ => none

/-- A task waits for the end of the queue. -/
def Drains (l : Lobby α) (t : TaskId) : Prop :=
  ∃ w, l.tasks.get? t = some w ∧ w.drains = true

theorem drains_of_get? {l : Lobby α} {t : TaskId} {w : Task} (ht : l.tasks.get? t = some w) :
    l.Drains t ↔ w.drains = true := by
  constructor
  · rintro ⟨w', hw', hdrains⟩
    obtain rfl := Option.some.inj (ht.symm.trans hw')
    exact hdrains
  · exact fun hdrains => ⟨w, ht, hdrains⟩

theorem not_drains_of_get? {l : Lobby α} {t : TaskId} (ht : l.tasks.get? t = none) : ¬l.Drains t := by
  rintro ⟨w, hw, -⟩
  exact absurd (ht.symm.trans hw) (by simp)

variable [BEq α]

/-! ## The queue of a lobby -/

theorem floor_look (l : Lobby α) (t : TaskId) : (l.look t).floor = l.floor.take := by
  cases hhand : l.floor.queue.hand with
  | notYet =>
    have hwaiting : l.floor.queue.waiting = [] := by
      cases hw : l.floor.queue.waiting with
      | nil => rfl
      | cons x rest =>
        rw [(l.floor.queue.hand_eq_item_iff x).mpr ⟨rest, hw⟩] at hhand
        exact absurd hhand (by simp)
    rw [look_of_notYet hhand, Floor.take_of_empty hwaiting]
    rfl
  | finished => rw [look_of_hand (by simp [hhand])]; rfl
  | item x => rw [look_of_hand (by simp [hhand])]; rfl

theorem floor_next (l : Lobby α) (m : Move α) :
    (l.next m).floor = match m.onFloor? with
      | some k => l.floor.next k
      | none => l.floor := by
  cases m with
  | look t => exact l.floor_look t
  | call t => simp only [next]; split <;> rfl
  | leave t =>
    simp only [next]
    split
    · exact l.floor_withdraw t
    · rfl
  | check t =>
    show (l.check t).floor = l.floor
    unfold check
    split <;> rfl
  | abandon t =>
    simp only [next]
    split
    · exact l.floor_withdraw t
    · rfl
  | _ => rfl

theorem allows_onFloor {l : Lobby α} {m : Move α} (ha : l.allows m = true) {k : WorkQueue.Move α}
    (hk : m.onFloor? = some k) : l.floor.allows k = true := by
  cases m with
  | use t m =>
    obtain rfl := Option.some.inj hk
    cases m with
    | take => rfl
    | _ => exact (Bool.and_eq_true_iff.mp ha).2
  | look t =>
    obtain rfl := Option.some.inj hk
    rfl
  | drain t =>
    obtain rfl := Option.some.inj hk
    rfl
  | _ => exact absurd hk (by simp [Move.onFloor?])

/-- What every move of a queue keeps, every run of its users keeps. -/
theorem run_keeps_floor {P : Floor α → Prop}
    (step : ∀ s m, P s → s.allows m = true → P (s.next m)) {l : Lobby α} (h : P l.floor)
    {ms : List (Move α)} (hl : (machine α).legal l ms = true) : P ((machine α).run l ms).floor := by
  refine (machine α).run_keeps (P := fun l => P l.floor) ?_ h hl
  intro l m h ha
  show P (l.next m).floor
  rw [floor_next]
  cases hk : m.onFloor? with
  | none => exact h
  | some k => exact step _ k h (allows_onFloor ha hk)

/-! ## Whatever is allowed can be brought about -/

/-- A task makes all its calls. -/
theorem makes_calls {l : Lobby α} {t : TaskId} {sequel : Sequel} {cs : List Call}
    (ht : l.tasks.get? t = some (.calling sequel cs)) :
    ∃ ms, (machine α).legal l ms = true ∧ ((machine α).run l ms).floor = l.floor ∧
      ((machine α).run l ms).tasks.get? t = some (.calling sequel []) := by
  induction cs generalizing l with
  | nil => exact ⟨[], rfl, rfl, ht⟩
  | cons c rest ih =>
    have hnext : l.next (.call t) = (l.call c).put t (.calling sequel rest) := by simp only [next, ht]
    obtain ⟨ms, hl, hfloor, hget⟩ := ih (l := (l.call c).put t (.calling sequel rest)) (get?_put _ t _)
    refine ⟨.call t :: ms, ((machine α).legal_cons _ _ _).mpr ⟨by simp [machine, allows, ht], ?_⟩, ?_, ?_⟩
    · exact (congrArg (fun l => (machine α).legal l ms) hnext).trans hl
    · exact (congrArg (fun l => ((machine α).run l ms).floor) hnext).trans hfloor
    · exact (congrArg (fun l => ((machine α).run l ms).tasks.get? t) hnext).trans hget

/-- A task that is only to make its calls makes them and goes. -/
theorem makes_calls_and_goes {l : Lobby α} {t : TaskId} {sequel : Sequel} {cs : List Call}
    (ht : l.tasks.get? t = some (.calling sequel cs)) (hsequel : sequel ≠ .drains) :
    ∃ ms, (machine α).legal l ms = true ∧ ((machine α).run l ms).floor = l.floor ∧
      ((machine α).run l ms).tasks.get? t = none := by
  obtain ⟨ms, hl, hfloor, hget⟩ := makes_calls ht
  generalize hl' : (machine α).run l ms = l' at hfloor hget
  refine ⟨ms ++ [.leave t], ((machine α).legal_append _ _ _).mpr ⟨hl, ?_⟩, ?_, ?_⟩
  · rw [hl', Machine.legal_cons]
    exact ⟨by simp [machine, allows, hget, hsequel], rfl⟩
  · rw [Machine.run_append, hl']
    exact (l'.floor_next (.leave t)).trans hfloor
  · rw [Machine.run_append, hl']
    show (l'.next (.leave t)).tasks.get? t = none
    simp only [next, hget]
    split <;> exact get?_dismiss _ t

/-- Someone who is not there yet can do to the queue what is allowed. -/
theorem brings_about {l : Lobby α} {t : TaskId} (ht : l.tasks.get? t = none) {m : WorkQueue.Move α}
    (ha : l.floor.allows m = true) :
    ∃ ms, (machine α).legal l ms = true ∧ ((machine α).run l ms).floor = l.floor.next m ∧
      ((machine α).run l ms).tasks.get? t = none := by
  by_cases htake : m = .take
  · subst htake
    -- a consumer that finds nothing leaves the queue as it is, and so need not come
    by_cases hhand : l.floor.queue.hand = .notYet
    · refine ⟨[], rfl, ?_, ht⟩
      have hlook := l.floor_look t
      rw [look_of_notYet hhand] at hlook
      exact hlook
    · have hlook := look_of_hand (l := (l.register t).put t .looking) hhand t
      obtain ⟨ms, hl, hfloor, hget⟩ := makes_calls_and_goes (l := ((l.register t).put t .looking).look t)
        (hlook ▸ get?_put _ t _) (by simp)
      refine ⟨.ask t :: .look t :: ms, ?_, ?_, hget⟩
      · simp only [Machine.legal_cons]
        exact ⟨by simp [machine, allows, ht], by simp [machine, next, allows, get?_put], hl⟩
      · exact hfloor.trans (floor_look _ t)
  · obtain ⟨ms, hl, hfloor, hget⟩ := makes_calls_and_goes (l := l.next (.use t m)) (get?_put _ t _) (by simp)
    refine ⟨.use t m :: ms, ((machine α).legal_cons _ _ _).mpr ⟨?_, hl⟩, hfloor, hget⟩
    show l.allows (.use t m) = true
    cases m with
    | take => exact absurd rfl htake
    | _ => simp [allows, Table.contains, ht, ha]

/-- **Every run of a queue is brought about by tasks**, also by one that comes again and again. -/
theorem covers {l : Lobby α} {t : TaskId} (ht : l.tasks.get? t = none) {ks : List (WorkQueue.Move α)}
    (hk : (Floor.machine α).legal l.floor ks = true) :
    ∃ ms, (machine α).legal l ms = true ∧
      ((machine α).run l ms).floor = (Floor.machine α).run l.floor ks := by
  induction ks generalizing l with
  | nil => exact ⟨[], rfl, rfl⟩
  | cons k ks ih =>
    obtain ⟨ha, hk⟩ := ((Floor.machine α).legal_cons l.floor k ks).mp hk
    obtain ⟨ms₁, hl₁, hfloor₁, hget⟩ := brings_about ht ha
    rw [show (Floor.machine α).next l.floor k = l.floor.next k from rfl, ← hfloor₁] at hk
    obtain ⟨ms₂, hl₂, hfloor₂⟩ := ih hget hk
    refine ⟨ms₁ ++ ms₂, ((machine α).legal_append _ _ _).mpr ⟨hl₁, hl₂⟩, ?_⟩
    rw [Machine.run_append, hfloor₂, hfloor₁]
    rfl

/-! ## Drains -/

/-- A step moves nobody but the one whose step it is. -/
theorem besides_next (l : Lobby α) (m : Move α) : Besides m.actor l (l.next m) := by
  have hwithdraw : ∀ t, Besides t l ((l.withdraw t).dismiss t) := fun t u hu =>
    (besides_dismiss (l.withdraw t) t u hu).trans (by rw [tasks_withdraw])
  cases m with
  | call t =>
    simp only [next]
    split
    · exact besides_put (l.call _) t _
    · exact fun _ _ => rfl
  | leave t =>
    simp only [next]
    split
    · exact hwithdraw t
    · exact besides_dismiss l t
  | look t =>
    show Besides t l (l.look t)
    unfold look
    split
    · exact besides_put l t _
    · exact besides_put { l with floor := l.floor.take } t _
  | check t =>
    show Besides t l (l.check t)
    unfold check
    split
    · exact besides_dismiss { l with drained := l.drained.withdraw t } t
    · exact besides_put l t _
  | abandon t =>
    simp only [next]
    split
    · exact hwithdraw t
    · exact besides_dismiss { l with drained := l.drained.withdraw t } t
  | use t m => exact besides_put { l with floor := l.floor.next m } t _
  | ask t => exact besides_put (l.register t) t _
  | drain t => exact besides_put { l with floor := l.floor.next .shutDown } t _
  | watch t => exact besides_put (l.enlist t) t _

omit [BEq α] in
theorem Drains.besides {l l' : Lobby α} {t u : TaskId} (hb : Besides u l l') (hne : t ≠ u) :
    l'.Drains t ↔ l.Drains t := by
  unfold Drains
  rw [hb t hne]

/-- A call that a task makes does not change what it is about. -/
theorem drains_call {l : Lobby α} {t : TaskId} (ha : l.allows (.call t) = true) :
    (l.next (.call t)).Drains t ↔ l.Drains t := by
  cases ht : l.tasks.get? t with
  | none => simp [allows, ht] at ha
  | some w =>
    cases w with
    | calling sequel calls =>
      cases calls with
      | nil => simp [allows, ht] at ha
      | cons c rest =>
        have hnext : l.next (.call t) = (l.call c).put t (.calling sequel rest) := by simp only [next, ht]
        rw [hnext, drains_of_get? (get?_put _ t _), drains_of_get? ht]
        cases sequel <;> rfl
    | _ => simp [allows, ht] at ha

/-- Whoever waits for the end after a step did so before, or has just come to shut the queue down. -/
theorem drains_before {l : Lobby α} {m : Move α} (ha : l.allows m = true) {t : TaskId}
    (h : (l.next m).Drains t) : l.Drains t ∨ m = .drain t := by
  by_cases hactor : t = m.actor
  · subst hactor
    cases m with
    | drain t => exact .inr rfl
    | watch t =>
      rcases Bool.or_eq_true_iff.mp ha with ht | ht
      · exact .inl ⟨_, eq_of_beq ht, rfl⟩
      · exact .inl ⟨_, eq_of_beq ht, rfl⟩
    | check t => exact .inl ⟨_, eq_of_beq ha, rfl⟩
    | call t => exact .inl ((drains_call ha).mp h)
    | use t m => exact absurd ((drains_of_get? (get?_put _ t _)).mp h) Bool.noConfusion
    | ask t => exact absurd ((drains_of_get? (get?_put _ t _)).mp h) Bool.noConfusion
    | look t =>
      replace h : (l.look t).Drains t := h
      unfold look at h
      split at h <;> exact absurd ((drains_of_get? (get?_put _ t _)).mp h) Bool.noConfusion
    | leave t =>
      simp only [next] at h
      split at h <;> exact absurd h (not_drains_of_get? (get?_dismiss _ t))
    | abandon t =>
      simp only [next] at h
      split at h <;> exact absurd h (not_drains_of_get? (get?_dismiss _ t))
  · exact .inl ((Drains.besides (l.besides_next m) hactor).mp h)

/-- Whoever does not wait for the end any more after a step has seen that the queue is idle, or was given
up. -/
theorem drains_after {l : Lobby α} {m : Move α} (ha : l.allows m = true) {t : TaskId} (h : l.Drains t) :
    (l.next m).Drains t ∨ m = .abandon t ∨ (m = .check t ∧ l.floor.queue.isIdle = true) := by
  by_cases hactor : t = m.actor
  · subst hactor
    obtain ⟨w, ht, hdrains⟩ := h
    cases m with
    | abandon t => exact .inr (.inl rfl)
    | check t =>
      by_cases hidle : l.floor.queue.isIdle = true
      · exact .inr (.inr ⟨rfl, hidle⟩)
      · refine .inl ?_
        show (l.check t).Drains t
        rw [check, if_neg hidle, drains_of_get? (get?_put _ t _)]
        rfl
    | watch t => exact .inl ((drains_of_get? (get?_put _ t _)).mpr rfl)
    | drain t => exact .inl ((drains_of_get? (get?_put _ t _)).mpr rfl)
    | call t => exact .inl ((drains_call ha).mpr ⟨w, ht, hdrains⟩)
    -- whoever drains does nothing else: these steps are not allowed to it
    | use t m =>
      simp only [Move.actor] at ht
      cases m <;> simp [allows, Table.contains, ht] at ha
    | ask t =>
      simp only [Move.actor] at ht
      cases w <;> simp [allows, ht, Task.drains] at ha hdrains
    | look t =>
      obtain rfl := Option.some.inj (ht.symm.trans (eq_of_beq ha))
      exact absurd hdrains Bool.noConfusion
    | leave t =>
      simp only [Move.actor] at ht
      cases w with
      | calling sequel calls =>
        cases calls with
        | nil =>
          cases sequel with
          | drains => simp [allows, ht] at ha
          | _ => exact absurd hdrains Bool.noConfusion
        | cons c rest => simp [allows, ht] at ha
      | _ => simp [allows, ht] at ha
  · exact .inl ((Drains.besides (l.besides_next m) hactor).mpr h)

/-! ## The end -/

/-- A consumer that looks when the queue is over goes without an item. -/
theorem look_of_over {l : Lobby α} (h : l.floor.Over) (t : TaskId) :
    l.look t = l.put t (.calling .withdraws []) := by
  obtain ⟨hwaiting, -, -⟩ := (isIdle_iff _).mp h.idle
  rw [look_of_hand (by simp [h.hand]), Floor.take_of_empty hwaiting, takeCalls, hwaiting]

/-- **Ends well**: what those who use a queue may rely on about its end. -/
structure EndsWell (l : Lobby α) : Prop where
  /-- Whoever waits for the end has shut the queue down. -/
  shut : ∀ t, l.Drains t → l.floor.queue.closed = true
  /-- Unless it is given up, it returns only when the queue is idle. -/
  returns : ∀ t m, l.allows m = true → l.Drains t → m ≠ .abandon t → ¬(l.next m).Drains t →
    (l.next m).floor.queue.closed = true ∧ (l.next m).floor.queue.isIdle = true
  /-- A queue that is shut down winds down. -/
  winds_down : l.floor.queue.closed = true → l.floor.WindsDown
  /-- Once it is idle, whatever its users do leaves it as it is, besides its counters, and every consumer
  goes without an item. -/
  lasts : l.floor.queue.closed = true → l.floor.queue.isIdle = true →
    ∀ ms, (machine α).legal l ms = true →
      (∃ b, ((machine α).run l ms).floor = l.floor.recount b) ∧
      ∀ t, (((machine α).run l ms).shared.consult t).2.1 = .finished ∧
        ((machine α).run l ms).look t = ((machine α).run l ms).put t (.calling .withdraws [])

variable [EquivBEq α]

theorem EndsWell.of_sound {l : Lobby α} (h : l.floor.Sound)
    (hshut : ∀ t, l.Drains t → l.floor.queue.closed = true) : l.EndsWell where
  shut := hshut
  returns t m ha hdrains hgiven hreturned := by
    rcases drains_after ha hdrains with hstill | hgiven' | ⟨rfl, hidle⟩
    · exact absurd hstill hreturned
    · exact absurd hgiven' hgiven
    · rw [l.floor_next (.check t)]
      exact ⟨hshut t hdrains, hidle⟩
  winds_down hclosed := h.windsDown hclosed
  lasts hclosed hidle ms hl := by
    have hover : ((machine α).run l ms).floor.Over ∧
        ∃ b, ((machine α).run l ms).floor = l.floor.recount b := by
      refine run_keeps_floor (P := fun s => s.Over ∧ ∃ b, s = l.floor.recount b) ?_
        ⟨⟨h, hclosed, hidle⟩, l.floor.queue.backoff, rfl⟩ hl
      rintro s m ⟨hs, b, rfl⟩ ha
      obtain ⟨b', hb'⟩ := hs.next ha
      exact ⟨hb' ▸ hs.recount b', b', hb'⟩
    refine ⟨hover.2, fun t => ⟨?_, look_of_over hover.1 t⟩⟩
    unfold SharedQueue.consult
    rw [show ((machine α).run l ms).shared.queue.hand = .finished from hover.1.hand]

/-- **The end of a queue.** Whoever uses it and in whatever order, once it is shut down there is less to go
with every landing, hand-out and done, and nothing else changes it; a drain returns only when it is idle;
and then it stays so for good. -/
theorem run_endsWell (name : String) (base max : Duration) (ms : List (Move α))
    (hl : (machine α).legal (start name base max) ms = true) :
    ((machine α).run (start name base max) ms).EndsWell := by
  refine .of_sound (run_keeps_floor (fun _ m hs ha => hs.next m ha) (.start name base max) hl) ?_
  refine (machine α).run_keeps (P := fun l => ∀ t, l.Drains t → l.floor.queue.closed = true) ?_ ?_ hl
  · intro l m h ha t hdrains
    show (l.next m).floor.queue.closed = true
    rcases drains_before ha hdrains with hbefore | rfl
    · rw [floor_next]
      cases m.onFloor? with
      | none => exact h t hbefore
      | some k => exact Crew.closed_next (h t hbefore) k
    · rfl
  · -- at the start there are no tasks
    exact fun t hdrains => absurd hdrains (not_drains_of_get? rfl)

/-- Item 1 is added again while it is in hand, item 2 lands after the shutdown, and the drain waits. -/
theorem run_endsWell_readded :
    (machine Nat).legal (start "q" ⟨1⟩ ⟨10⟩)
        [.use 1 (.add 1), .use 2 (.addAfter 2 ⟨5⟩), .ask 3, .look 3, .use 4 (.add 1), .drain 5,
          .use 6 (.land 2), .call 5, .watch 5, .check 5] = true ∧
      ((machine Nat).run (start "q" ⟨1⟩ ⟨10⟩)
        [.use 1 (.add 1), .use 2 (.addAfter 2 ⟨5⟩), .ask 3, .look 3, .use 4 (.add 1), .drain 5,
          .use 6 (.land 2), .call 5, .watch 5, .check 5]).floor.queue.toGo = 5 ∧
      ((machine Nat).run (start "q" ⟨1⟩ ⟨10⟩)
        [.use 1 (.add 1), .use 2 (.addAfter 2 ⟨5⟩), .ask 3, .look 3, .use 4 (.add 1), .drain 5,
          .use 6 (.land 2), .call 5, .watch 5, .check 5]).EndsWell :=
  ⟨by decide, by decide, run_endsWell "q" ⟨1⟩ ⟨10⟩ _ (by decide)⟩

end Lobby

end BorderSync.WorkQueue
