/-
# BorderSync.Proofs.Queue.Summons -- who has been called, and who is still to be

What matters about a lobby is who waits to be called, who has calls to make, and who was called and has not
looked since. A call takes those whom it reaches off the board and does nothing else; a consumer that goes
passes on what has reached it.
-/
import BorderSync.Proofs.Queue.Lobby

namespace BorderSync.WorkQueue

/-- The calls that a task has to make. -/
def Task.calls : Task → List Call
  | .calling _ calls => calls
  | _ => []

namespace Lobby

variable {α : Type} {l l' : Lobby α} {t : TaskId}

section Views

variable {c : Call}

/-- Someone has this call to make. -/
def Due (l : Lobby α) (c : Call) : Prop :=
  ∃ t w, l.tasks.get? t = some w ∧ c ∈ w.calls

/-- Those whom a call to one has reached and who have not registered since, and those who are
registered. -/
def roll (l : Lobby α) : List TaskId :=
  l.reached ++ l.itemReady.waiters

/-- A consumer waits to be called. -/
def Parks (l : Lobby α) : Prop :=
  ∃ t ∈ l.itemReady.waiters, l.tasks.get? t = some .parked

/-- A drain waits to be called. -/
def Lingers (l : Lobby α) : Prop :=
  ∃ t ∈ l.drained.waiters, l.tasks.get? t = some .lingering

/-- A consumer is about to look, or a call has reached it and it has not registered since. -/
def Alert (l : Lobby α) : Prop :=
  (∃ t, l.tasks.get? t = some .looking) ∨ l.reached ≠ []

/-- All tasks but one are where they were. -/
def Besides (t : TaskId) (l l' : Lobby α) : Prop :=
  ∀ u, u ≠ t → l'.tasks.get? u = l.tasks.get? u

theorem get?_put (l : Lobby α) (t : TaskId) (w : Task) : (l.put t w).tasks.get? t = some w := by
  show (l.tasks.insert t w).get? t = some w
  simp [Table.get?_insert]

theorem get?_dismiss (l : Lobby α) (t : TaskId) : (l.dismiss t).tasks.get? t = none := by
  show (l.tasks.erase t).get? t = none
  simp [Table.get?_erase]

theorem besides_put (l : Lobby α) (t : TaskId) (w : Task) : Besides t l (l.put t w) := by
  intro u hu
  show (l.tasks.insert t w).get? u = _
  simp [Table.get?_insert, hu]

theorem besides_dismiss (l : Lobby α) (t : TaskId) : Besides t l (l.dismiss t) := by
  intro u hu
  show (l.tasks.erase t).get? u = _
  simp [Table.get?_erase, hu]

/-- A call that another task has to make is still to be made. -/
theorem Due.besides (h : l.Due c) (hb : Besides t l l')
    (ht : ∀ w, l.tasks.get? t = some w → c ∉ w.calls) : l'.Due c := by
  obtain ⟨u, w, hu, hc⟩ := h
  have hne : u ≠ t := by
    rintro rfl
    exact ht w hu hc
  exact ⟨u, w, (hb u hne).trans hu, hc⟩

/-- Others who wait now waited before. -/
theorem Parks.besides (h : l'.Parks) (hb : Besides t l l') (ht : l'.tasks.get? t ≠ some .parked)
    (hw : ∀ u, u ≠ t → u ∈ l'.itemReady.waiters → u ∈ l.itemReady.waiters) : l.Parks := by
  obtain ⟨u, hu, hparked⟩ := h
  have hne : u ≠ t := by
    rintro rfl
    exact ht hparked
  exact ⟨u, hw u hne hu, (hb u hne).symm.trans hparked⟩

theorem Lingers.besides (h : l'.Lingers) (hb : Besides t l l')
    (ht : l'.tasks.get? t ≠ some .lingering)
    (hw : ∀ u, u ≠ t → u ∈ l'.drained.waiters → u ∈ l.drained.waiters) : l.Lingers := by
  obtain ⟨u, hu, hlingering⟩ := h
  have hne : u ≠ t := by
    rintro rfl
    exact ht hlingering
  exact ⟨u, hw u hne hu, (hb u hne).symm.trans hlingering⟩

/-- Others who are alert stay so. -/
theorem Alert.besides (h : l.Alert) (hb : Besides t l l') (ht : l.tasks.get? t ≠ some .looking)
    (hr : l.reached ≠ [] → l'.reached ≠ []) : l'.Alert := by
  rcases h with ⟨u, hu⟩ | hreached
  · have hne : u ≠ t := by
      rintro rfl
      exact ht hu
    exact .inl ⟨u, (hb u hne).trans hu⟩
  · exact .inr (hr hreached)

end Views

/-! ## A call -/

/-- A call to one takes the first who waits, and reaches it; without one it is kept. -/
theorem call_oneConsumer (l : Lobby α) :
    l.call .oneConsumer = match l.itemReady.waiters with
      | [] => { l with itemReady := { l.itemReady with kept := true } }
      | t :: rest =>
        { l with itemReady := { l.itemReady with waiters := rest }, reached := l.reached ++ [t] } := by
  unfold call shared SharedQueue.call Notice.callOne
  cases hw : l.itemReady.waiters <;> simp [hw]

theorem call_allConsumers (l : Lobby α) :
    l.call .allConsumers = { l with itemReady := { l.itemReady with waiters := [] } } := by
  simp [call, shared, SharedQueue.call, Notice.callAll]

theorem call_allDrains (l : Lobby α) :
    l.call .allDrains = { l with drained := { l.drained with waiters := [] } } := by
  simp [call, shared, SharedQueue.call, Notice.callAll]

/-- Nobody is registered who was not registered before a call. -/
theorem mem_waiters_call {c : Call} {u : TaskId} (h : u ∈ (l.call c).itemReady.waiters) :
    u ∈ l.itemReady.waiters := by
  cases c with
  | oneConsumer =>
    rw [call_oneConsumer] at h
    cases hw : l.itemReady.waiters with
    | nil => simp [hw] at h
    | cons t rest =>
      rw [hw] at h
      exact List.mem_cons_of_mem t h
  | allConsumers => simp [call_allConsumers] at h
  | allDrains => rwa [call_allDrains] at h

theorem mem_drained_call {c : Call} {u : TaskId} (h : u ∈ (l.call c).drained.waiters) :
    u ∈ l.drained.waiters := by
  cases c with
  | oneConsumer =>
    rw [call_oneConsumer] at h
    cases hw : l.itemReady.waiters with
    | nil => rwa [hw] at h
    | cons t rest => rwa [hw] at h
  | allConsumers => rwa [call_allConsumers] at h
  | allDrains => simp [call_allDrains] at h

/-- A call to one changes nothing about who is registered or reached; a call to all frees everyone. -/
theorem roll_call (l : Lobby α) (c : Call) : (l.call c).roll.Sublist l.roll := by
  cases c with
  | oneConsumer =>
    rw [call_oneConsumer]
    cases hw : l.itemReady.waiters with
    | nil => simp [roll, hw]
    | cons t rest => simp [roll, hw]
  | allConsumers =>
    rw [call_allConsumers]
    exact (List.Sublist.refl l.reached).append (List.nil_sublist _)
  | allDrains =>
    rw [call_allDrains]
    exact List.Sublist.refl _

theorem reached_call {c : Call} (h : l.reached ≠ []) : (l.call c).reached ≠ [] := by
  cases c with
  | oneConsumer =>
    rw [call_oneConsumer]
    cases l.itemReady.waiters with
    | nil => exact h
    | cons t rest => exact List.append_ne_nil_of_left_ne_nil h _
  | allConsumers => rwa [call_allConsumers]
  | allDrains => rwa [call_allDrains]

/-- After a call to one, someone is reached if anyone is still registered. -/
theorem reached_of_call_oneConsumer {u : TaskId}
    (h : u ∈ (l.call .oneConsumer).itemReady.waiters) : (l.call .oneConsumer).reached ≠ [] := by
  rw [call_oneConsumer] at h ⊢
  cases hw : l.itemReady.waiters with
  | nil => simp [hw] at h
  | cons t rest => exact List.append_ne_nil_of_right_ne_nil _ (List.cons_ne_nil t [])

theorem kept_call {c : Call} (h : l.itemReady.kept = true → l.itemReady.waiters = []) :
    (l.call c).itemReady.kept = true → (l.call c).itemReady.waiters = [] := by
  cases c with
  | oneConsumer =>
    rw [call_oneConsumer]
    cases hw : l.itemReady.waiters with
    | nil => exact fun _ => hw
    | cons t rest => exact fun hk => absurd ((h hk).symm.trans hw) (by simp)
  | allConsumers =>
    rw [call_allConsumers]
    exact fun _ => rfl
  | allDrains => rwa [call_allDrains]

/-! ## A consumer that registers -/

theorem mem_waiters_register {u : TaskId} (hne : u ≠ t)
    (h : u ∈ (l.register t).itemReady.waiters) : u ∈ l.itemReady.waiters := by
  unfold register Notice.register at h
  split at h
  · exact h
  · simpa [hne] using h

/-- Whoever registers uses a kept call up. -/
theorem kept_register (l : Lobby α) (t : TaskId) :
    (l.register t).itemReady.kept = true → (l.register t).itemReady.waiters = [] := by
  intro hk
  unfold register Notice.register at hk
  split at hk
  · exact absurd hk Bool.false_ne_true
  · rename_i hnot
    exact absurd hk hnot

/-- Nobody but who registers is new on the lists. -/
theorem roll_register (h : t ∉ l.itemReady.waiters) :
    (l.register t).roll.Sublist ((l.roll.filter fun u => !(u == t)) ++ [t]) := by
  have hboard : (l.itemReady.waiters.filter fun u => !(u == t)) = l.itemReady.waiters :=
    List.filter_eq_self.mpr fun u hu => by
      have hne : u ≠ t := by
        rintro rfl
        exact h hu
      simpa using hne
  unfold roll register Notice.register
  rw [List.filter_append, hboard]
  split
  · exact List.sublist_append_left _ _
  · exact List.append_assoc _ _ _ ▸ List.Sublist.refl _

/-! ## A consumer that goes -/

theorem tasks_withdraw (l : Lobby α) (t : TaskId) : (l.withdraw t).tasks = l.tasks := by
  unfold withdraw
  split <;> rfl

theorem floor_withdraw (l : Lobby α) (t : TaskId) : (l.withdraw t).floor = l.floor := by
  unfold withdraw
  split <;> rfl

theorem drained_withdraw (l : Lobby α) (t : TaskId) : (l.withdraw t).drained = l.drained := by
  unfold withdraw
  split
  · rw [call_oneConsumer]
    cases (l.strike t).itemReady.waiters <;> rfl
  · rfl

theorem mem_waiters_withdraw {u : TaskId} (h : u ∈ (l.withdraw t).itemReady.waiters) :
    u ≠ t ∧ u ∈ l.itemReady.waiters := by
  have hmem : u ∈ (l.strike t).itemReady.waiters := by
    unfold withdraw at h
    split at h
    · exact mem_waiters_call h
    · exact h
  simpa [strike, Notice.withdraw, and_comm] using hmem

/-- Who goes is on no list any more, and nobody new is. -/
theorem roll_withdraw (l : Lobby α) (t : TaskId) :
    (l.withdraw t).roll.Sublist (l.roll.filter fun u => !(u == t)) := by
  have hstrike : (l.strike t).roll = l.roll.filter fun u => !(u == t) :=
    (List.filter_append _ _).symm
  unfold withdraw
  split
  · exact hstrike ▸ roll_call _ _
  · exact hstrike ▸ List.Sublist.refl _

theorem kept_withdraw (h : l.itemReady.kept = true → l.itemReady.waiters = []) :
    (l.withdraw t).itemReady.kept = true → (l.withdraw t).itemReady.waiters = [] := by
  have hstrike : (l.strike t).itemReady.kept = true → (l.strike t).itemReady.waiters = [] := by
    intro hk
    simp [strike, Notice.withdraw, h hk]
  unfold withdraw
  split
  · exact kept_call hstrike
  · exact hstrike

/-- While anyone is still registered, someone is reached as before. -/
theorem reached_withdraw {u : TaskId} (h : l.reached ≠ [])
    (hu : u ∈ (l.withdraw t).itemReady.waiters) : (l.withdraw t).reached ≠ [] := by
  unfold withdraw at hu ⊢
  by_cases ht : l.reached.contains t = true
  · rw [if_pos ht] at hu ⊢
    exact reached_of_call_oneConsumer hu
  · rw [if_neg ht]
    -- the call has reached someone else
    show l.reached.filter _ ≠ []
    rw [List.filter_eq_self.mpr]
    · exact h
    · intro v hv
      have hne : v ≠ t := by
        rintro rfl
        exact ht (List.contains_iff_mem.mpr hv)
      simpa using hne

end Lobby

end BorderSync.WorkQueue
