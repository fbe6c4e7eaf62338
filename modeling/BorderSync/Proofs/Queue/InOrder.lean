/-
# BorderSync.Proofs.Queue.InOrder -- that changes of one service are planned for in their order

Every change waits before it enters the inbound queue, for as long as its own failures earn; the failures
of other changes of the same service play no part in that. A change that is added while an equal one is
still under way waits longer than its neighbours, or becomes one with the change that is waiting. And a change
whose wait is over may land after one whose wait ended later. Without such changes, and as long as the timers
of a service are served in turn, all its changes stay in line, and a queue with one consumer keeps their order.

Whether or not order is kept, nothing is lost: whatever is added, an equal change is planned for later.
-/
import BorderSync.Event.Change
import BorderSync.Proofs.Queue.Line

namespace BorderSync.WorkQueue.Lane

variable {α : Type} [BEq α] {s : Lane α} {p : α → Bool}

/-! ## What is added is dealt with -/

section Answers

variable {x : α}

/-- The mark says that an equal item is dealt with. -/
def Mark.Answers (x : α) (mark : Mark α) : Prop :=
  ∃ y, mark = .dealt y ∧ (x == y) = true

/-- What is added is awaited. -/
theorem isAwaited_of_added [EquivBEq α] {m : Move α} (h : .added x ∈ s.marks m) :
    (s.next m).isAwaited x = true := by
  cases m with
  | post =>
    cases hout : s.outbox with
    | none => simp [marks, hout] at h
    | some e =>
      obtain ⟨y, wait⟩ := e
      rw [isAwaited_iff]
      show s.post.coming.contains x = true ∨ s.post.queue.dirty.contains x = true ∨ _
      rcases post_cases hout with ⟨-, hopen, hpost⟩ | ⟨-, hopen, hpost⟩ | ⟨hclosed, -⟩
      · obtain rfl : x = y := by simpa [marks, hout, hopen] using h
        rw [hpost]
        exact .inr (.inl (by simp [dirty_push]))
      · obtain rfl : x = y := by simpa [marks, hout, hopen] using h
        rw [hpost]
        exact .inl (by simp [coming])
      · simp [marks, hout, hclosed] at h
  | deal =>
    simp only [marks] at h
    split at h <;> simp at h
  | rate y => simp [marks] at h
  | land i =>
    simp only [marks] at h
    split at h <;> simp at h
  | pass millis => exact absurd h List.not_mem_nil
  | take => exact absurd h List.not_mem_nil
  | forget => exact absurd h List.not_mem_nil
  | done => exact absurd h List.not_mem_nil
  | shutDown => exact absurd h List.not_mem_nil

/-- What is awaited stays so until an equal item is dealt with. -/
theorem isAwaited_next [EquivBEq α] (h : s.isAwaited x = true) (m : Move α) (ha : s.allows m = true) :
    (s.next m).isAwaited x = true ∨ ∃ mark ∈ s.marks m, mark.Answers x := by
  rw [isAwaited_iff] at h ⊢
  cases m with
  | pass millis => exact .inl h
  | rate y => exact .inl h
  | shutDown => exact .inl h
  | post =>
    obtain ⟨⟨y, wait⟩, hout⟩ := Option.isSome_iff_exists.mp ha
    refine .inl ?_
    show s.post.coming.contains x = true ∨ s.post.queue.dirty.contains x = true ∨
      s.post.desk.fresh?.toList.contains x = true
    rcases post_cases hout with ⟨-, -, hpost⟩ | ⟨-, -, hpost⟩ | ⟨-, hpost⟩
    · rw [hpost, dirty_push, Bool.or_eq_true]
      exact h.imp_right (.imp_left .inl)
    · rw [hpost]
      refine h.imp_left ?_
      intro hcoming
      show ((s.pending ++ _).map Pending.item).contains x = true
      rw [List.map_append, List.contains_append, Bool.or_eq_true]
      exact .inl hcoming
    · rw [hpost]
      exact h
  | land i =>
    obtain ⟨before, u, after, hpending, -, hland, -⟩ := land_cases ha
    have hdirty : (s.queue.land u.item).dirty.contains x = (s.queue.dirty.contains x || x == u.item) :=
      dirty_push _ _ _
    refine .inl ?_
    show (s.land i).coming.contains x = true ∨ (s.land i).queue.dirty.contains x = true ∨
      (s.land i).desk.fresh?.toList.contains x = true
    rw [hland, hdirty, Bool.or_eq_true]
    rw [contains_coming_of_land hpending, Bool.or_eq_true] at h
    rcases h with (hu | hrest) | hdirty | hdesk
    · exact .inr (.inl (.inr hu))
    · exact .inl hrest
    · exact .inr (.inl (.inl hdirty))
    · exact .inr (.inr hdesk)
  | take =>
    refine .inl ?_
    show s.take.coming.contains x = true ∨ s.take.queue.dirty.contains x = true ∨
      s.take.desk.fresh?.toList.contains x = true
    rcases take_cases s with ⟨-, htake⟩ | ⟨y, rest, hw, htake⟩
    · rw [htake]
      exact h
    · rw [htake, dirty_take hw, contains_without]
      rcases h with hcoming | hdirty | hdesk
      · exact .inl hcoming
      · by_cases hxy : (x == y) = true
        · exact .inr (.inr (by simp [Desk.fresh?, hxy]))
        · exact .inr (.inl (by simp only [hdirty, hxy, Bool.not_false, Bool.and_self]))
      · cases hs : s.desk <;> simp [allows, hs] at ha
        simp [hs, Desk.fresh?] at hdesk
  | deal =>
    cases hs : s.desk with
    | fresh y =>
      simp only [next, marks, hs]
      rcases h with hcoming | hdirty | hdesk
      · exact .inl (.inl hcoming)
      · exact .inl (.inr (.inl hdirty))
      · exact .inr ⟨_, List.mem_singleton_self _, y, rfl, by simpa [hs, Desk.fresh?] using hdesk⟩
    | _ => simp [allows, hs] at ha
  | forget =>
    cases hs : s.desk with
    | dealt y =>
      simp only [next, hs]
      rw [hs] at h
      exact .inl h
    | _ => simp [allows, hs] at ha
  | done =>
    cases hs : s.desk with
    | forgotten y =>
      simp only [next, hs]
      rw [hs] at h
      exact .inl h
    | _ => simp [allows, hs] at ha

/-- Once everything is done nothing is awaited, and nothing is under way. -/
theorem Sound.of_isIdle [EquivBEq α] (h : s.Sound) (hidle : s.queue.isIdle = true) :
    (∀ x, s.isAwaited x = false) ∧ s.underWay p = [] := by
  obtain ⟨hwaiting, hprocessing, hdelayed⟩ := (isIdle_iff _).mp hidle
  have hcoming : s.coming = [] := by
    have hpending : s.pending = [] := List.length_eq_zero_iff.mp (h.delayed ▸ hdelayed)
    rw [coming, hpending]
    rfl
  have hdesk : s.desk.fresh?.toList = [] := by
    have hitem := h.in_hand.symm.trans hprocessing
    cases hs : s.desk with
    | fresh x => simp [hs, Desk.item?] at hitem
    | _ => rfl
  refine ⟨fun x => ?_, ?_⟩
  · unfold isAwaited
    rw [hcoming, h.queue.dirty_of_isIdle hidle, hdesk]
    rfl
  · unfold underWay
    rw [hdesk, hwaiting, hcoming]
    rfl

end Answers

/-! ## Changes of one service -/

open Event

/-- The change is one of the service with this label. -/
def concerns (k : String) (c : Change) : Bool :=
  c.label == k

/-- Equal changes are changes of the same service. -/
theorem coarse_concerns (k : String) : Coarse (concerns k) := by
  intro a b h
  obtain ⟨-, hlabel, -, -⟩ : a.kind = b.kind ∧ a.label = b.label ∧ _ ∧ _ := by
    simpa [Change.identity] using Change.beq_iff.mp h
  unfold concerns
  rw [hlabel]

/-- **In order**: what a stretch of a run, from one state to another, does to the changes of a service. A
consumer of the inbound queue deals with a change by planning for it. -/
structure InOrder (k : String) (s t : Lane Change) (l : List (Mark Change)) : Prop where
  /-- If nothing of the service is under way at first, none of its changes is added while an equal one is
  under way, and their timers are served in turn, then all that are added are planned for, once each and in
  their order, except for those at the end that are under way still. -/
  order : s.isQuiet (concerns k) = true → (∀ c, .called c true ∈ l → c.label ≠ k) →
    InTurn (concerns k) l → added (concerns k) l = dealt (concerns k) l ++ t.underWay (concerns k)
  /-- Nothing is under way once everything is done: the change that was planned for last is then the one
  that was added last. -/
  settled : t.queue.isIdle = true → t.underWay (concerns k) = []
  /-- Whatever is added, an equal change is planned for afterwards. -/
  followed : t.queue.isIdle = true → ∀ c before after, l = before ++ .added c :: after →
    ∃ d, .dealt d ∈ after ∧ (c == d) = true

/-- **That changes are planned for in their order**, in every run of a producer, timers that are served in
every order, and one consumer, from any moment on. -/
theorem run_in_order (name : String) (base max : Duration) (ms₁ ms₂ : List (Move Change))
    (hl : (machine Change).legal (start name base max) (ms₁ ++ ms₂) = true) (k : String) :
    InOrder k ((machine Change).run (start name base max) ms₁)
      ((machine Change).run (start name base max) (ms₁ ++ ms₂))
      (((machine Change).run (start name base max) ms₁).history ms₂) := by
  obtain ⟨hl₁, hl₂⟩ := ((machine Change).legal_append _ _ _).mp hl
  have hs : ((machine Change).run (start name base max) ms₁).Sound := (Sound.start name base max).run hl₁
  have ht := hs.run hl₂
  rw [(machine Change).run_append]
  refine ⟨fun hquiet hfree hturn => ?_, fun hidle => (ht.of_isIdle hidle).2, fun hidle c before after h => ?_⟩
  · obtain ⟨hline, hnone⟩ := InLine.of_isQuiet (coarse_concerns k) hs hquiet
    have hother : ∀ c, .called c true ∈ ((machine Change).run (start name base max) ms₁).history ms₂ →
        concerns k c = false := fun c hc => by simpa [concerns] using hfree c hc
    have hrun := hline.run (coarse_concerns k) hs hl₂ hother hturn
    rw [hnone] at hrun
    exact hrun
  · rcases (machine Change).log_answers marks (P := Sound) (fun s => s.isAwaited c = true)
      (Mark.Answers c) (fun _ m hs ha => hs.next m ha) (fun _ m _ ha h => isAwaited_next h m ha)
      (fun _ _ _ _ hmark => isAwaited_of_added hmark) hs hl₂ h with hawaited | ⟨mark, hmem, d, rfl, hcd⟩
    · rw [(ht.of_isIdle (p := concerns k) hidle).1 c] at hawaited
      exact absurd hawaited Bool.false_ne_true
    · exact ⟨d, hmem, hcd⟩

/-- A change of one service. -/
def change (kind : Kind) (version : String) : Change :=
  .of kind { name := some "tea", namespaceName := some "default", version := some version } none
    ["10.0.0.1"]

/-- The producer adds a change. -/
def adding (c : Change) : List (Move Change) :=
  [.rate c, .post]

/-- The consumer takes a change, plans for it, and is done with it. -/
def consuming : List (Move Change) :=
  [.take, .deal, .forget, .done]

/-- A change is added again while it waits for its timer, after another change of the same service. -/
def returning : List (Move Change) :=
  adding (change .created "1") ++ adding (change .updated "2") ++ adding (change .created "1")
    ++ [.pass 10, .land 0, .land 0, .land 0] ++ consuming ++ consuming

/-- Two changes are added one after the other, and wait at the same time. -/
def following : List (Move Change) :=
  adding (change .updated "3") ++ [.pass 4] ++ adding (change .deleted "3") ++ [.pass 6, .land 0]
    ++ consuming ++ [.pass 4, .land 0] ++ consuming

/-- A run that keeps the order from the moment at which an earlier disorder is over. -/
theorem run_in_order_following :
    (machine Change).legal (start "inbound" ⟨10000000⟩ ⟨10000000⟩) (returning ++ following) = true ∧
      dealt (concerns "default/tea")
        (((machine Change).run (start "inbound" ⟨10000000⟩ ⟨10000000⟩) returning).history following) =
          [change .updated "3", change .deleted "3"] := by
  have hlegal : (machine Change).legal (start "inbound" ⟨10000000⟩ ⟨10000000⟩) (returning ++ following)
      = true := by decide
  have hmarks : ((machine Change).run (start "inbound" ⟨10000000⟩ ⟨10000000⟩) returning).history following =
      [.called (change .updated "3") false, .added (change .updated "3"),
        .called (change .deleted "3") false, .added (change .deleted "3"), .landed (change .updated "3") [],
        .dealt (change .updated "3"), .landed (change .deleted "3") [], .dealt (change .deleted "3")] := rfl
  have hturn : InTurn (concerns "default/tea")
      (((machine Change).run (start "inbound" ⟨10000000⟩ ⟨10000000⟩) returning).history following) := by
    intro c overtaken hc _ d hd
    simp only [hmarks, List.mem_cons, List.not_mem_nil, Mark.landed.injEq, reduceCtorEq, false_or, or_false] at hc
    rcases hc with ⟨-, rfl⟩ | ⟨-, rfl⟩ <;> exact absurd hd List.not_mem_nil
  have horder := (run_in_order "inbound" ⟨10000000⟩ ⟨10000000⟩ returning following hlegal "default/tea").order
    (by decide) (by simp [hmarks]) hturn
  refine ⟨hlegal, ?_⟩
  rw [hmarks] at horder ⊢
  have hnone : ((machine Change).run (start "inbound" ⟨10000000⟩ ⟨10000000⟩) (returning ++ following)).underWay
      (concerns "default/tea") = [] := rfl
  rw [hnone, List.append_nil] at horder
  rw [← horder]
  rfl

/-- The change that is planned for last need not be equal to the one that was added last: equal changes
that wait are one. -/
theorem returns_too_late : ¬ ∀ (name : String) (base max : Duration) (ms : List (Move Change)),
    base.nanos ≤ max.nanos → (machine Change).legal (start name base max) ms = true →
      ((machine Change).run (start name base max) ms).queue.isIdle = true → ∀ k,
        ((dealt (concerns k) ((start name base max).history ms)).map Change.identity).getLast? =
          ((added (concerns k) ((start name base max).history ms)).map Change.identity).getLast? := by
  intro h
  have hlast := h "inbound" ⟨10000000⟩ ⟨10000000⟩ returning (by decide) (by decide) (by decide)
    "default/tea"
  revert hlast
  decide

/-- Two changes are added at one moment, and the second one lands first. -/
def overtaking : List (Move Change) :=
  adding (change .updated "3") ++ adding (change .deleted "3") ++ [.pass 10, .land 1, .land 0]
    ++ consuming ++ consuming

/-- Nor need it be so if no change is added while an equal one is under way: a deletion may land before the
update that was added first. -/
theorem lands_too_early : ¬ ∀ (name : String) (base max : Duration) (ms : List (Move Change)),
    (machine Change).legal (start name base max) ms = true →
      ((machine Change).run (start name base max) ms).queue.isIdle = true →
        (∀ c, .called c true ∉ (start name base max).history ms) → ∀ k,
          ((dealt (concerns k) ((start name base max).history ms)).map Change.identity).getLast? =
            ((added (concerns k) ((start name base max).history ms)).map Change.identity).getLast? := by
  intro h
  have hmarks : ∀ c, Mark.called c true ∉ (start "inbound" ⟨10000000⟩ ⟨10000000⟩).history overtaking := by
    have hhistory : (start "inbound" ⟨10000000⟩ ⟨10000000⟩).history overtaking =
        [.called (change .updated "3") false, .added (change .updated "3"),
          .called (change .deleted "3") false, .added (change .deleted "3"),
          .landed (change .deleted "3") [change .updated "3"], .landed (change .updated "3") [],
          .dealt (change .deleted "3"), .dealt (change .updated "3")] := rfl
    simp [hhistory]
  have hlast := h "inbound" ⟨10000000⟩ ⟨10000000⟩ overtaking (by decide) (by decide) hmarks "default/tea"
  revert hlast
  decide

end BorderSync.WorkQueue.Lane
