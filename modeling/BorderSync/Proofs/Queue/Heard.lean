/-
# BorderSync.Proofs.Queue.Heard -- nobody waits in vain

A consumer waits while the queue is empty and something may still come; a drain waits while the queue is
not idle. When that ends, somebody has a call to make, or somebody who was called has yet to look. A call
to one is enough, although many may wait: whoever takes an item and leaves others calls the next, and
whoever was called and goes passes the call on. So when no task can go on, those who wait have nothing to
wait for.
-/
import BorderSync.Proofs.Queue.Summons

namespace BorderSync.WorkQueue.Lobby

variable {α : Type} {l : Lobby α} {t : TaskId}

/-- **Sound**: who is registered or was reached is there, and for whoever waits for something that is
there a call is on its way. -/
structure Sound (l : Lobby α) : Prop where
  /-- A call is kept only while nobody is registered. -/
  kept : l.itemReady.kept = true → l.itemReady.waiters = []
  /-- Nobody is registered twice, or registered and reached. -/
  once : l.roll.Nodup
  /-- Who is registered, and whom a call to one has reached, is a consumer. -/
  present : ∀ t ∈ l.roll, ∃ w, l.tasks.get? t = some w ∧ w.consumes = true
  item : l.floor.queue.waiting ≠ [] → l.Parks → l.Due .oneConsumer ∨ l.Alert
  spent : l.floor.queue.Spent → l.Parks → l.Due .allConsumers
  idle : l.floor.queue.isIdle = true → l.Lingers → l.Due .allDrains

namespace Sound

theorem start (name : String) (base max : Duration) : (Lobby.start name base max : Lobby α).Sound where
  kept _ := rfl
  once := List.nodup_nil
  present t h := absurd h List.not_mem_nil
  item h := absurd rfl h
  spent _ h := by
    obtain ⟨t, ht, -⟩ := h
    exact absurd ht (by simp [Lobby.start])
  idle _ h := by
    obtain ⟨t, ht, -⟩ := h
    exact absurd ht (by simp [Lobby.start])

/-- A call that is made is not due any more, and nobody waits for it. -/
theorem call (h : l.Sound) {sequel : Sequel} {c : Call} {rest : List Call}
    (ht : l.tasks.get? t = some (.calling sequel (c :: rest))) :
    Sound ((l.call c).put t (.calling sequel rest)) := by
  have hget := get?_put (l.call c) t (.calling sequel rest)
  have hb : Besides t l _ := besides_put (l.call c) t (.calling sequel rest)
  -- every other call that was due is still due
  have hdue : ∀ {d}, d ≠ c → l.Due d → ((l.call c).put t (.calling sequel rest)).Due d := by
    rintro d hne ⟨u, w, hu, hd⟩
    by_cases hut : u = t
    · subst hut
      obtain rfl := Option.some.inj (ht.symm.trans hu)
      exact ⟨u, _, hget, (List.mem_cons.mp hd).resolve_left hne⟩
    · exact ⟨u, w, (hb u hut).trans hu, hd⟩
  have hparks : ((l.call c).put t (.calling sequel rest)).Parks → l.Parks := fun hparks =>
    hparks.besides hb (by simp [hget]) fun _ _ hu => mem_waiters_call hu
  refine ⟨kept_call h.kept, h.once.sublist (roll_call l c), ?_, ?_, ?_, ?_⟩
  · intro u hu
    obtain ⟨w, hw, hconsumes⟩ := h.present u ((roll_call l c).subset hu)
    by_cases hut : u = t
    · subst hut
      obtain rfl := Option.some.inj (ht.symm.trans hw)
      refine ⟨_, hget, ?_⟩
      cases sequel <;> exact hconsumes
    · exact ⟨w, (hb u hut).trans hw, hconsumes⟩
  · intro hwaiting hparks'
    by_cases hc : c = .oneConsumer
    · subst hc
      obtain ⟨u, hu, -⟩ := hparks'
      exact .inr (.inr (reached_of_call_oneConsumer hu))
    · rcases h.item hwaiting (hparks hparks') with hd | halert
      · exact .inl (hdue (Ne.symm hc) hd)
      · exact .inr (halert.besides hb (by simp [ht]) reached_call)
  · intro hspent hparks'
    refine hdue ?_ (h.spent hspent (hparks hparks'))
    rintro rfl
    obtain ⟨u, hu, -⟩ := hparks'
    replace hu : u ∈ (l.call .allConsumers).itemReady.waiters := hu
    simp [call_allConsumers] at hu
  · intro hidle hlingers
    refine hdue ?_ (h.idle hidle
      (hlingers.besides hb (by simp [hget]) fun _ _ hu => mem_drained_call hu))
    rintro rfl
    obtain ⟨u, hu, -⟩ := hlingers
    replace hu : u ∈ (l.call .allDrains).drained.waiters := hu
    simp [call_allDrains] at hu

/-- Someone without calls to make and without a registration as a consumer goes, or goes on as a drain. -/
theorem aside (h : l.Sound) {w : Task} (ht : l.tasks.get? t = some w) (hcalls : w.calls = [])
    (hconsumes : w.consumes = false) {l' : Lobby α} (hb : Besides t l l') (hfloor : l'.floor = l.floor)
    (hboard : l'.itemReady = l.itemReady) (hreached : l'.reached = l.reached)
    (hparked : l'.tasks.get? t ≠ some .parked)
    (hdrained : ∀ u, u ≠ t → u ∈ l'.drained.waiters → u ∈ l.drained.waiters)
    (hidle : l.floor.queue.isIdle = true → l'.tasks.get? t ≠ some .lingering) : l'.Sound := by
  have hdue : ∀ {c}, l.Due c → l'.Due c := fun hd => hd.besides hb fun w' hw' => by
    rw [← Option.some.inj (ht.symm.trans hw'), hcalls]
    exact List.not_mem_nil
  have hparks : l'.Parks → l.Parks := fun hp => hp.besides hb hparked fun _ _ hu => hboard ▸ hu
  have hroll : l'.roll = l.roll := by
    unfold roll
    rw [hboard, hreached]
  refine ⟨hboard ▸ h.kept, hroll ▸ h.once, ?_, ?_, ?_, ?_⟩
  · intro u hu
    rw [hroll] at hu
    obtain ⟨w', hw', hconsumes'⟩ := h.present u hu
    have hne : u ≠ t := by
      rintro rfl
      rw [← Option.some.inj (ht.symm.trans hw'), hconsumes] at hconsumes'
      exact Bool.false_ne_true hconsumes'
    exact ⟨w', (hb u hne).trans hw', hconsumes'⟩
  · intro hwaiting hp
    rw [hfloor] at hwaiting
    refine (h.item hwaiting (hparks hp)).imp hdue fun halert => halert.besides hb ?_ (hreached ▸ id)
    rintro hlooking
    rw [Option.some.inj (ht.symm.trans hlooking)] at hconsumes
    exact absurd hconsumes (by simp [Task.consumes])
  · intro hspent hp
    exact hdue (h.spent (hfloor ▸ hspent) (hparks hp))
  · intro hi hl
    rw [hfloor] at hi
    exact hdue (h.idle hi (hl.besides hb (hidle hi) hdrained))

/-- A consumer without calls to make goes; if a call has reached it, the next one is called. -/
theorem depart (h : l.Sound) {w : Task} (ht : l.tasks.get? t = some w) (hcalls : w.calls = [])
    (hlooking : w ≠ .looking) : ((l.withdraw t).dismiss t).Sound := by
  have hget := get?_dismiss (l.withdraw t) t
  have hb : Besides t l ((l.withdraw t).dismiss t) := fun u hu =>
    (besides_dismiss (l.withdraw t) t u hu).trans (by rw [tasks_withdraw])
  have hfloor : ((l.withdraw t).dismiss t).floor = l.floor := floor_withdraw l t
  have hdue : ∀ {c}, l.Due c → ((l.withdraw t).dismiss t).Due c := fun hd =>
    hd.besides hb fun w' hw' => by
      rw [← Option.some.inj (ht.symm.trans hw'), hcalls]
      exact List.not_mem_nil
  have hparks : ((l.withdraw t).dismiss t).Parks → l.Parks := fun hp =>
    hp.besides hb (by simp [hget]) fun u _ hu => (mem_waiters_withdraw hu).2
  refine ⟨kept_withdraw h.kept, (h.once.filter _).sublist (roll_withdraw l t), ?_, ?_, ?_, ?_⟩
  · intro u hu
    obtain ⟨hu, hne⟩ := List.mem_filter.mp ((roll_withdraw l t).subset hu)
    obtain ⟨w', hw', hconsumes⟩ := h.present u hu
    exact ⟨w', (hb u (by simpa using hne)).trans hw', hconsumes⟩
  · intro hwaiting hp
    rw [hfloor] at hwaiting
    rcases h.item hwaiting (hparks hp) with hd | ⟨u, hu⟩ | hreached
    · exact .inl (hdue hd)
    · have hne : u ≠ t := by
        rintro rfl
        exact hlooking (Option.some.inj (ht.symm.trans hu))
      exact .inr (.inl ⟨u, (hb u hne).trans hu⟩)
    · obtain ⟨u, hu, -⟩ := hp
      exact .inr (.inr (reached_withdraw hreached hu))
  · intro hspent hp
    exact hdue (h.spent (hfloor ▸ hspent) (hparks hp))
  · intro hidle hl
    exact hdue (h.idle (hfloor ▸ hidle)
      (hl.besides hb (by simp [hget]) fun _ _ hu => drained_withdraw l t ▸ hu))

variable [BEq α]

/-- Someone who comes and changes the queue has the calls to make that this asks for. -/
theorem use (h : l.Sound) (ht : l.tasks.get? t = none) (m : WorkQueue.Move α) (sequel : Sequel) :
    Sound ({ l with floor := l.floor.next m }.put t (.calling sequel (l.floor.queue.callsOf m))) := by
  have hget := get?_put { l with floor := l.floor.next m } t (.calling sequel (l.floor.queue.callsOf m))
  have hb : Besides t l _ :=
    besides_put { l with floor := l.floor.next m } t (.calling sequel (l.floor.queue.callsOf m))
  have hnew : ∀ w, l.tasks.get? t = some w → ∀ c, c ∉ w.calls := by simp [ht]
  refine ⟨h.kept, h.once, ?_, ?_, ?_, ?_⟩
  · intro u hu
    obtain ⟨w, hw, hconsumes⟩ := h.present u hu
    have hne : u ≠ t := by
      rintro rfl
      exact absurd (ht.symm.trans hw) (by simp)
    exact ⟨w, (hb u hne).trans hw, hconsumes⟩
  · intro hwaiting hparks
    rcases called_of_waiting l.floor m hwaiting with hbefore | hcalled
    · rcases h.item hbefore (hparks.besides hb (by simp [hget]) fun _ _ hu => hu) with hdue | halert
      · exact .inl (hdue.besides hb fun w hw => hnew w hw _)
      · exact .inr (halert.besides hb (by simp [ht]) id)
    · exact .inl ⟨t, _, hget, hcalled⟩
  · intro hspent hparks
    rcases called_of_spent l.floor m hspent with hbefore | hcalled
    · exact (h.spent hbefore (hparks.besides hb (by simp [hget]) fun _ _ hu => hu)).besides hb
        fun w hw => hnew w hw _
    · exact ⟨t, _, hget, hcalled⟩
  · intro hidle hlingers
    rcases called_of_idle l.floor m hidle with hbefore | hcalled
    · exact (h.idle hbefore (hlingers.besides hb (by simp [hget]) fun _ _ hu => hu)).besides hb
        fun w hw => hnew w hw _
    · exact ⟨t, _, hget, hcalled⟩

omit [BEq α] in
/-- A consumer that registers is about to look. -/
theorem ask (h : l.Sound) (ht : ∀ w, l.tasks.get? t = some w → w = .parked)
    (hfree : t ∉ l.itemReady.waiters) :
    ((l.register t).put t .looking).Sound := by
  have hget := get?_put (l.register t) t .looking
  have hb : Besides t l ((l.register t).put t .looking) := besides_put (l.register t) t .looking
  have hcalls : ∀ w, l.tasks.get? t = some w → ∀ c, c ∉ w.calls := by
    intro w hw c
    rw [ht w hw]
    exact List.not_mem_nil
  have hroll := roll_register hfree
  have hparks : ((l.register t).put t .looking).Parks → l.Parks := fun hp =>
    hp.besides hb (by simp [hget]) fun _ hne hu => mem_waiters_register hne hu
  refine ⟨kept_register l t, ?_, ?_, ?_, ?_, ?_⟩
  · refine List.Nodup.sublist hroll (List.nodup_append.mpr ⟨h.once.filter _, by simp, ?_⟩)
    intro u hu v hv
    rw [List.mem_singleton.mp hv]
    simpa using (List.mem_filter.mp hu).2
  · intro u hu
    by_cases hut : u = t
    · exact ⟨.looking, hut ▸ hget, rfl⟩
    · have hbefore : u ∈ l.roll := by
        rcases List.mem_append.mp (hroll.subset hu) with hu | hu
        · exact (List.mem_filter.mp hu).1
        · exact absurd (List.mem_singleton.mp hu) hut
      obtain ⟨w, hw, hconsumes⟩ := h.present u hbefore
      exact ⟨w, (hb u hut).trans hw, hconsumes⟩
  · intro _ _
    exact .inr (.inl ⟨t, hget⟩)
  · intro hspent hp
    exact (h.spent hspent (hparks hp)).besides hb fun w hw => hcalls w hw _
  · intro hidle hl
    refine (h.idle hidle ?_).besides hb fun w hw => hcalls w hw _
    exact hl.besides hb (by simp [hget]) fun _ _ hu => hu

/-- A consumer that looks gets what there is, and waits only if there is nothing and something may come. -/
theorem look (h : l.Sound) (ht : l.tasks.get? t = some .looking) : (l.look t).Sound := by
  have hcalls : ∀ w, l.tasks.get? t = some w → ∀ c, c ∉ w.calls := by
    intro w hw c
    rw [← Option.some.inj (ht.symm.trans hw)]
    exact List.not_mem_nil
  by_cases hhand : l.floor.queue.hand = .notYet
  · rw [look_of_notYet hhand]
    have hget := get?_put l t .parked
    have hb := besides_put l t .parked
    obtain ⟨hwaiting, hspent⟩ := spent_of_hand hhand
    refine ⟨h.kept, h.once, ?_, fun hw => absurd hwaiting hw, fun hs => absurd hs hspent, ?_⟩
    · intro u hu
      by_cases hut : u = t
      · exact ⟨.parked, hut ▸ hget, rfl⟩
      · obtain ⟨w, hw, hconsumes⟩ := h.present u hu
        exact ⟨w, (hb u hut).trans hw, hconsumes⟩
    · intro hidle hl
      refine (h.idle hidle ?_).besides hb fun w hw => hcalls w hw _
      exact hl.besides hb (by simp [hget]) fun _ _ hu => hu
  · rw [look_of_hand hhand]
    have hget := get?_put { l with floor := l.floor.take } t (.calling .withdraws l.floor.queue.takeCalls)
    have hb : Besides t l _ :=
      besides_put { l with floor := l.floor.take } t (.calling .withdraws l.floor.queue.takeCalls)
    refine ⟨h.kept, h.once, ?_, ?_, ?_, ?_⟩
    · intro u hu
      by_cases hut : u = t
      · subst hut
        exact ⟨_, hget, rfl⟩
      · obtain ⟨w, hw, hconsumes⟩ := h.present u hu
        exact ⟨w, (hb u hut).trans hw, hconsumes⟩
    · intro hwaiting _
      exact .inl ⟨t, _, hget, called_of_take hwaiting⟩
    · intro hspent hp
      refine (h.spent (spent_of_take hspent) ?_).besides hb fun w hw => hcalls w hw _
      exact hp.besides hb (by simp [hget]) fun _ _ hu => hu
    · intro hidle hl
      refine (h.idle (idle_of_take hidle) ?_).besides hb fun w hw => hcalls w hw _
      exact hl.besides hb (by simp [hget]) fun _ _ hu => hu

omit [BEq α] in
/-- A drain that looks waits only if the queue is not idle. -/
theorem check (h : l.Sound) (ht : l.tasks.get? t = some .watching) : (l.check t).Sound := by
  unfold Lobby.check
  split
  · have hget := get?_dismiss { l with drained := l.drained.withdraw t } t
    refine h.aside ht rfl rfl (besides_dismiss { l with drained := l.drained.withdraw t } t)
      rfl rfl rfl (by simp [hget]) ?_ (by simp [hget])
    exact fun _ _ hu => (List.mem_filter.mp hu).1
  · rename_i hidle
    have hget := get?_put l t .lingering
    exact h.aside ht rfl rfl (besides_put l t .lingering) rfl rfl rfl (by simp [hget])
      (fun _ _ hu => hu) fun hi => absurd hi hidle

omit [BEq α] in
/-- A drain that registers is about to look. -/
theorem watch (h : l.Sound) {w : Task} (ht : l.tasks.get? t = some w) (hcalls : w.calls = [])
    (hconsumes : w.consumes = false) :
    ((l.enlist t).put t .watching).Sound := by
  have hget := get?_put (l.enlist t) t .watching
  refine h.aside ht hcalls hconsumes (besides_put (l.enlist t) t .watching) rfl rfl rfl
    (by simp [hget]) ?_ (by simp [hget])
  intro u hne hu
  replace hu : u ∈ ((l.drained.withdraw t).register t).1.waiters := hu
  unfold Notice.register at hu
  split at hu
  · exact (List.mem_filter.mp hu).1
  · rcases List.mem_append.mp hu with hu | hu
    · exact (List.mem_filter.mp hu).1
    · exact absurd (List.mem_singleton.mp hu) hne

/-- **Every allowed move keeps a lobby sound.** -/
theorem next (h : l.Sound) (m : Move α) (ha : l.allows m = true) : (l.next m).Sound := by
  have hnew : ∀ t, (!l.tasks.contains t) = true → l.tasks.get? t = none := by
    intro t ht
    simpa [Table.contains] using ht
  cases m with
  | use t m =>
    refine h.use (hnew t ?_) m .goes
    cases m with
    | take => exact absurd ha Bool.false_ne_true
    | _ => exact (Bool.and_eq_true_iff.mp ha).1
  | drain t => exact h.use (hnew t ha) .shutDown .drains
  | call t =>
    simp only [Lobby.allows] at ha
    split at ha
    · rename_i ht
      simp only [Lobby.next, ht]
      exact h.call ht
    · exact absurd ha Bool.false_ne_true
  | leave t =>
    simp only [Lobby.allows] at ha
    split at ha
    · rename_i sequel ht
      cases sequel with
      | drains => exact absurd ha (by decide)
      | withdraws =>
        simp only [Lobby.next, ht]
        exact h.depart ht rfl (by simp)
      | goes =>
        simp only [Lobby.next, ht]
        have hget := get?_dismiss l t
        exact h.aside ht rfl rfl (besides_dismiss l t) rfl rfl rfl (by simp [hget])
          (fun _ _ hu => hu) (by simp [hget])
    · exact absurd ha Bool.false_ne_true
  | ask t =>
    simp only [Lobby.allows] at ha
    split at ha
    · rename_i hnone
      refine h.ask (by simp [hnone]) ?_
      intro hmem
      obtain ⟨w, hw, -⟩ := h.present t (List.mem_append_right _ hmem)
      exact absurd (hnone.symm.trans hw) (by simp)
    · rename_i hparked
      exact h.ask (by simp [hparked]) (by simpa using ha)
    · exact absurd ha Bool.false_ne_true
  | look t => exact h.look (by simpa [Lobby.allows] using ha)
  | watch t =>
    rcases Bool.or_eq_true_iff.mp ha with ht | ht
    · exact h.watch (by simpa using ht) rfl rfl
    · exact h.watch (by simpa using ht) rfl rfl
  | check t => exact h.check (by simpa [Lobby.allows] using ha)
  | abandon t =>
    rcases Bool.or_eq_true_iff.mp ha with ht | ht
    · replace ht : l.tasks.get? t = some .parked := by simpa using ht
      simp only [Lobby.next, ht]
      exact h.depart ht rfl (by simp)
    · replace ht : l.tasks.get? t = some .lingering := by simpa using ht
      have hget := get?_dismiss { l with drained := l.drained.withdraw t } t
      simp only [Lobby.next, ht]
      refine h.aside ht rfl rfl (besides_dismiss { l with drained := l.drained.withdraw t } t)
        rfl rfl rfl (by simp [hget]) ?_ (by simp [hget])
      exact fun _ _ hu => (List.mem_filter.mp hu).1

/-- Every legal run keeps a lobby sound. -/
theorem run (h : l.Sound) {ms : List (Move α)} (hl : (machine α).legal l ms = true) :
    ((machine α).run l ms).Sound :=
  (machine α).run_keeps (P := Lobby.Sound) (fun _ m hs ha => hs.next m ha) h hl

end Sound

/-! ## When no task can go on -/

/-- **Heard**: how those are placed who are left when no task can go on. -/
structure Heard (l : Lobby α) : Prop where
  /-- Whoever is left waits. -/
  at_rest : ∀ t w, l.tasks.get? t = some w → w = .parked ∨ w = .lingering
  /-- A consumer waits only while nothing is there and something may still come. -/
  consumers : ∀ t, l.tasks.get? t = some .parked →
    l.floor.queue.waiting = [] ∧ (l.floor.queue.closed = false ∨ 0 < l.floor.queue.delayed)
  /-- A drain waits only while something is waiting, in hand or delayed. -/
  drains : ∀ t, l.tasks.get? t = some .lingering → l.floor.queue.isIdle = false

/-- When no task can go on, nobody has a call to make and nobody is about to look. -/
theorem Sound.unsummoned (h : l.Sound) (hquiet : ∀ t w, l.tasks.get? t = some w → l.rests t w = true) :
    (∀ c, ¬l.Due c) ∧ ¬l.Alert := by
  refine ⟨?_, ?_⟩
  · rintro c ⟨t, w, hw, hc⟩
    have hrests := hquiet t w hw
    cases w with
    | calling sequel calls => exact absurd hrests Bool.false_ne_true
    | _ => exact absurd hc List.not_mem_nil
  · rintro (⟨t, ht⟩ | hreached)
    · exact absurd (hquiet t _ ht) Bool.false_ne_true
    · obtain ⟨t, ht⟩ := List.exists_mem_of_ne_nil _ hreached
      obtain ⟨w, hw, hconsumes⟩ := h.present t (List.mem_append_left _ ht)
      have hrests := hquiet t w hw
      cases w with
      | parked =>
        -- whom a call has reached is not registered any more
        exact (List.nodup_append.mp h.once).2.2 t ht t (List.contains_iff_mem.mp hrests) rfl
      | calling sequel calls => exact absurd hrests Bool.false_ne_true
      | looking => exact absurd hrests Bool.false_ne_true
      | watching => exact absurd hrests Bool.false_ne_true
      | lingering => exact absurd hconsumes Bool.false_ne_true

/-- When no task can go on, those who wait have nothing to wait for. -/
theorem Sound.heard (h : l.Sound) (hquiet : ∀ t w, l.tasks.get? t = some w → l.rests t w = true) :
    l.Heard := by
  obtain ⟨hdue, halert⟩ := h.unsummoned hquiet
  have hparks : ∀ t, l.tasks.get? t = some .parked → l.Parks := fun t ht =>
    ⟨t, List.contains_iff_mem.mp (hquiet t _ ht), ht⟩
  refine ⟨?_, ?_, ?_⟩
  · intro t w hw
    have hrests := hquiet t w hw
    cases w with
    | parked => exact .inl rfl
    | lingering => exact .inr rfl
    | _ => exact absurd hrests Bool.false_ne_true
  · intro t ht
    refine ⟨Decidable.byContradiction fun hwaiting => ?_, ?_⟩
    · exact (h.item hwaiting (hparks t ht)).elim (hdue _) halert
    · cases hclosed : l.floor.queue.closed with
      | false => exact .inl rfl
      | true =>
        refine .inr (Nat.pos_of_ne_zero fun hdelayed => ?_)
        exact hdue _ (h.spent ⟨hclosed, hdelayed⟩ (hparks t ht))
  · intro t ht
    cases hidle : l.floor.queue.isIdle with
    | false => rfl
    | true => exact absurd (h.idle hidle ⟨t, List.contains_iff_mem.mp (hquiet t _ ht), ht⟩) (hdue _)

variable [BEq α]

/-- **Nobody waits in vain.** However many tasks use a new queue and however their steps interleave, when
none of them can go on then no consumer is left waiting while something is there or nothing will come any
more, and no drain is left waiting for a queue that is idle. -/
theorem run_heard (name : String) (base max : Duration) (ms : List (Move α))
    (hl : (machine α).legal (Lobby.start name base max) ms = true)
    (hquiet : (machine α).Quiet works ((machine α).run (Lobby.start name base max) ms)) :
    Heard ((machine α).run (Lobby.start name base max) ms) :=
  ((Sound.start name base max).run hl).heard ((quiet_iff _).mp hquiet)

/-- Two consumers wait when an item is added. A third one comes and takes it before the call for it is
made, so that the one whom the call reaches waits again. Then a drain begins while one item is in hand
and another is delayed. -/
def overtaken : List (Move Nat) :=
  [.ask 1, .look 1, .ask 2, .look 2, .use 3 (.add 7), .ask 4, .look 4, .leave 4, .call 3, .leave 3,
    .ask 1, .look 1, .use 3 (.addAfter 9 ⟨5⟩), .leave 3, .drain 5, .call 5, .ask 1, .look 1, .ask 2,
    .look 2, .watch 5, .check 5]

theorem run_heard_overtaken :
    (machine Nat).legal (Lobby.start "q" ⟨1⟩ ⟨10⟩) overtaken = true ∧
      (machine Nat).Quiet works ((machine Nat).run (Lobby.start "q" ⟨1⟩ ⟨10⟩) overtaken) ∧
      Heard ((machine Nat).run (Lobby.start "q" ⟨1⟩ ⟨10⟩) overtaken) :=
  have hquiet := quiet_of_entries (l := (machine Nat).run (Lobby.start "q" ⟨1⟩ ⟨10⟩) overtaken) (by decide)
  ⟨by decide, hquiet, run_heard "q" ⟨1⟩ ⟨10⟩ overtaken (by decide) hquiet⟩

end BorderSync.WorkQueue.Lobby
