/-
# BorderSync.Proofs.Queue.HandOut -- every accepted add is answered, and nothing else is handed out

What the marks of a whole run look like. A hand-out of an item answers the accepted adds of it since
its last hand-out, and every accepted add is answered unless its item is still waiting at the end.
So the adds between two hand-outs count as one. Items are handed out in the order in which they
joined those that wait.
-/
import BorderSync.Proofs.Queue.History

namespace BorderSync.WorkQueue

variable {α : Type} [BEq α]

/-! ## Runs of the machine that owes -/

section Owed

variable {x : α} {b : Bool}

/-- What is owed stays owed until it is handed out. -/
theorem owed_stays {l : List (Mark α)} (h : ∀ m ∈ l, m.hands x = false) :
    (owed x).run true l = true := by
  induction l with
  | nil => rfl
  | cons m l ih =>
    have hnext : (owed x).next true m = true := by
      simp [owed, h m List.mem_cons_self]
    rw [Machine.run_cons, hnext]
    exact ih fun m' hm' => h m' (List.mem_cons_of_mem m hm')

/-- A hand-out answers an accepted add after the last hand-out, or something owed from the start. -/
theorem owed_asked {before after : List (Mark α)} {m : Mark α} (hm : m.hands x = true)
    (h : (owed x).legal b (before ++ m :: after) = true) :
    (∃ a m' c, before = a ++ m' :: c ∧ m'.accepts x = true ∧ ∀ k ∈ c, k.hands x = false) ∨
      (b = true ∧ ∀ k ∈ before, k.hands x = false) := by
  induction before generalizing b with
  | nil =>
    have hb : (b || !m.hands x) = true := ((Machine.legal_cons _ _ _ _).mp h).1
    rw [hm, Bool.not_true, Bool.or_false] at hb
    exact Or.inr ⟨hb, by simp⟩
  | cons k before ih =>
    rcases ih ((Machine.legal_cons _ _ _ _).mp h).2 with ⟨a, m', c, rfl, ha, hc⟩ | ⟨hnext, hc⟩
    · exact Or.inl ⟨k :: a, m', c, rfl, ha, hc⟩
    · rw [show (owed x).next b k = (k.accepts x || (b && !k.hands x)) from rfl, Bool.or_eq_true,
        Bool.and_eq_true, Bool.not_eq_true'] at hnext
      rcases hnext with hk | ⟨hb, hk⟩
      · exact Or.inl ⟨[], k, before, rfl, hk, hc⟩
      · exact Or.inr ⟨hb, List.forall_mem_cons.mpr ⟨hk, hc⟩⟩

/-- An accepted add is answered by a later hand-out, or still owed at the end. -/
theorem owed_answered {before after : List (Mark α)} {m : Mark α} (hm : m.accepts x = true) :
    (∃ k ∈ after, k.hands x = true) ∨ (owed x).run b (before ++ m :: after) = true := by
  by_cases hk : ∃ k ∈ after, k.hands x = true
  · exact Or.inl hk
  · have hnone : ∀ k ∈ after, k.hands x = false := by
      intro k hmem
      exact Bool.eq_false_iff.mpr fun hhands => hk ⟨k, hmem, hhands⟩
    have hnext : ∀ c, (owed x).next c m = true := by
      intro c
      simp [owed, hm]
    refine Or.inr ?_
    rw [Machine.run_append, Machine.run_cons, hnext]
    exact owed_stays hnone

end Owed

/-- How often an item is handed out. -/
def handOuts (x : α) (l : List (Mark α)) : Nat :=
  l.countP (Mark.hands x)

/-- **Batches** of accepted adds of an item: adds without a hand-out between them are one batch;
`begun` says that one has begun. -/
def batches (x : α) (begun : Bool) : List (Mark α) → Nat
  | [] => 0
  | m :: l =>
    if m.accepts x then (if begun then 0 else 1) + batches x true l
    else if m.hands x then batches x false l
    else batches x begun l

/-- A mark never accepts and hands out an item at once. -/
theorem Mark.not_hands_of_accepts {x : α} {m : Mark α} (h : m.accepts x = true) :
    m.hands x = false := by
  cases m with
  | handed y => exact absurd h Bool.false_ne_true
  | added y => rfl
  | announced y => rfl
  | landed y => rfl
  | entered y => rfl
  | closed => rfl

/-- Every batch is answered by one hand-out, except one that is still owed at the end. -/
theorem owed_collapses (x : α) {b : Bool} {l : List (Mark α)} (h : (owed x).legal b l = true) :
    handOuts x l + ((owed x).run b l).toNat = b.toNat + batches x b l := by
  induction l generalizing b with
  | nil => simp [handOuts, batches]
  | cons m l ih =>
    obtain ⟨hallows, hl⟩ := (Machine.legal_cons _ _ _ _).mp h
    have hcount : handOuts x (m :: l) = handOuts x l + if m.hands x then 1 else 0 :=
      List.countP_cons
    have hrest := ih hl
    rw [Machine.run_cons, hcount, batches]
    by_cases ha : m.accepts x
    · -- an accepted add begins a batch, unless one has begun
      have hh := Mark.not_hands_of_accepts ha
      have hnext : (owed x).next b m = true := by simp [owed, ha]
      rw [hnext] at hrest ⊢
      simp only [ha, hh, if_true, Bool.false_eq_true, if_false, Bool.toNat_true] at hrest ⊢
      cases b <;> simp <;> omega
    · by_cases hh : m.hands x
      · -- a hand-out ends the batch
        have hb : b = true := by simpa [owed, hh] using hallows
        have hnext : (owed x).next b m = false := by simp [owed, ha, hh]
        rw [hnext] at hrest ⊢
        simp only [ha, hh, if_true, Bool.false_eq_true, if_false, Bool.toNat_false, hb,
          Bool.toNat_true] at hrest ⊢
        omega
      · have hnext : (owed x).next b m = b := by simp [owed, ha, hh]
        rw [hnext] at hrest ⊢
        simp only [ha, hh, Bool.false_eq_true, if_false, Nat.add_zero]
        exact hrest

/-! ## Runs of the machine that counts delayed adds -/

/-- A mark never announces and lands an item at once. -/
theorem Mark.not_lands_of_announces {x : α} {m : Mark α} (h : m.announces x = true) :
    m.lands x = false := by
  cases m with
  | landed y => exact absurd h Bool.false_ne_true
  | added y => rfl
  | announced y => rfl
  | entered y => rfl
  | handed y => rfl
  | closed => rfl

/-- Announced adds are those that have landed and those still under way. -/
theorem underWay_balance (x : α) {n : Nat} {l : List (Mark α)}
    (h : (underWay x).legal n l = true) :
    n + l.countP (Mark.announces x) = l.countP (Mark.lands x) + (underWay x).run n l := by
  induction l generalizing n with
  | nil => simp
  | cons m l ih =>
    obtain ⟨hallows, hl⟩ := (Machine.legal_cons _ _ _ _).mp h
    have hrest := ih hl
    rw [Machine.run_cons, List.countP_cons, List.countP_cons]
    by_cases hann : m.announces x
    · have hlands := Mark.not_lands_of_announces hann
      have hnext : (underWay x).next n m = n + 1 := by simp [underWay, hann]
      rw [hnext] at hrest ⊢
      simp only [hann, hlands, if_true, Bool.false_eq_true, if_false]
      omega
    · by_cases hlands : m.lands x
      · -- an add that lands was under way, so that the count is not cut off at zero
        have hpos : 0 < n := by simpa [underWay, hlands] using hallows
        have hnext : (underWay x).next n m = n - 1 := by simp [underWay, hann, hlands]
        rw [hnext] at hrest ⊢
        simp only [hann, hlands, if_true, Bool.false_eq_true, if_false]
        omega
      · have hnext : (underWay x).next n m = n := by simp [underWay, hann, hlands]
        rw [hnext] at hrest ⊢
        simp only [hann, hlands, Bool.false_eq_true, if_false]
        omega

/-- Before a delayed add lands, more were announced than have landed. -/
theorem underWay_announced {x : α} {before after : List (Mark α)} {m : Mark α}
    (hm : m.lands x = true) (h : (underWay x).legal 0 (before ++ m :: after) = true) :
    before.countP (Mark.lands x) < before.countP (Mark.announces x) := by
  obtain ⟨hbefore, hafter⟩ := ((underWay x).legal_append _ _ _).mp h
  have hpos : 0 < (underWay x).run 0 before := by
    have hallows := ((Machine.legal_cons _ _ _ _).mp hafter).1
    simpa [underWay, hm] using hallows
  have hbalance := underWay_balance x hbefore
  omega

/-! ## Runs of the gate -/

omit [BEq α] in
/-- Nothing is admitted once the gate is shut. -/
theorem gate_shut {l : List (Mark α)} (h : (gate α).legal true l = true) :
    ∀ m ∈ l, m.admits = false := by
  induction l with
  | nil => simp
  | cons m l ih =>
    obtain ⟨hallows, hl⟩ := (Machine.legal_cons _ _ _ _).mp h
    refine List.forall_mem_cons.mpr ⟨?_, ih hl⟩
    simpa [gate] using hallows

omit [BEq α] in
/-- Nothing is admitted after the shutdown. -/
theorem gate_refuses {shut : Bool} {before after : List (Mark α)}
    (h : (gate α).legal shut (before ++ .closed :: after) = true) :
    ∀ m ∈ after, m.admits = false := by
  have hafter := (((gate α).legal_append _ _ _).mp h).2
  have hshut : (gate α).next ((gate α).run shut before) .closed = true := Bool.or_true _
  have hlegal := ((Machine.legal_cons _ _ _ _).mp hafter).2
  rw [hshut] at hlegal
  exact gate_shut hlegal

/-! ## Whole runs -/

/-- The item is waiting: it is in line, or marked to join it when it is done. -/
def awaits (q : WorkQueue α) (x : α) : Bool :=
  q.waiting.contains x || (q.dirty.contains x && q.processing.contains x)

/-- In a sound queue the items that are waiting are the dirty ones. -/
theorem Sound.awaits {q : WorkQueue α} (h : q.Sound) (x : α) : q.awaits x = q.dirty.contains x := by
  unfold WorkQueue.awaits
  rw [h.waits]
  cases q.dirty.contains x <;> cases q.processing.contains x <;> rfl

/-- **Faithful**: how the hand-outs of a run answer its accepted adds, when the run ends with the
queue `q`. -/
structure Faithful (l : List (Mark α)) (q : WorkQueue α) : Prop where
  /-- A hand-out comes after an accepted add of the item that no other hand-out has answered. -/
  asked : ∀ x before m after, l = before ++ m :: after → m.hands x = true →
    ∃ a m' c, before = a ++ m' :: c ∧ m'.accepts x = true ∧ ∀ k ∈ c, k.hands x = false
  /-- After an accepted add the item is handed out, or it is waiting at the end. -/
  answered : ∀ x before m after, l = before ++ m :: after → m.accepts x = true →
    (∃ k ∈ after, k.hands x = true) ∨ q.awaits x = true
  /-- All accepted adds without a hand-out between them are answered by exactly one. -/
  collapsed : ∀ x, handOuts x l + (q.awaits x).toNat = batches x false l
  /-- What lands was announced, and has not landed before. -/
  scheduled : ∀ x before m after, l = before ++ m :: after → m.lands x = true →
    before.countP (Mark.lands x) < before.countP (Mark.announces x)
  /-- After the shutdown no add is accepted, neither an immediate nor a delayed one. -/
  refused : ∀ before after, l = before ++ .closed :: after → ∀ m ∈ after, m.admits = false
  /-- Items are handed out in the order in which they joined the line. -/
  in_order : l.filterMap Mark.entering? = l.filterMap Mark.handed? ++ q.waiting

/-- **Every accepted add is answered, by one hand-out for all of them since the last, in order.**
This holds of every run of a new queue, before its shutdown and after it. -/
theorem run_faithful [EquivBEq α] (name : String) (base max : Duration) (ms : List (Move α))
    (hl : (Floor.machine α).legal (Floor.start name base max) ms = true) :
    Faithful (Floor.history (.start name base max) ms)
      ((Floor.machine α).run (.start name base max) ms).queue := by
  have hsound := (Floor.Sound.start (α := α) name base max).run hl
  have howed : ∀ x, (owed x).legal false (Floor.history (.start name base max) ms) = true ∧
      (owed x).run false (Floor.history (.start name base max) ms) =
        ((Floor.machine α).run (.start name base max) ms).queue.dirty.contains x := fun x =>
    (Floor.machine α).log_simulates (owed x) (v := fun s : Floor α => s.queue.dirty.contains x)
      (fun s m hs ha => hs.next m ha) (fun s m hs _ => Floor.owed_step x s m hs)
      (.start name base max) hl
  have hunder : ∀ x, (underWay x).legal 0 (Floor.history (.start name base max) ms) = true := fun x =>
    ((Floor.machine α).log_simulates (underWay x) (v := fun s : Floor α => s.coming.countP (x == ·))
      (fun s m hs ha => hs.next m ha) (fun s m _ ha => Floor.underWay_step x s m ha)
      (Floor.Sound.start name base max) hl).1
  have hgate : (gate α).legal false (Floor.history (.start name base max) ms) = true :=
    ((Floor.machine α).log_simulates (gate α) (v := fun s : Floor α => s.queue.closed)
      (fun s m hs ha => hs.next m ha) (fun s m _ _ => Floor.gate_step s m)
      (Floor.Sound.start name base max) hl).1
  refine ⟨?_, ?_, ?_, ?_, ?_, ?_⟩
  · intro x before m after heq hm
    rcases owed_asked hm (heq ▸ (howed x).1) with hasked | ⟨hfalse, -⟩
    · exact hasked
    · exact absurd hfalse Bool.false_ne_true
  · intro x before m after heq hm
    rw [hsound.queue.awaits, ← (howed x).2, heq]
    exact owed_answered hm
  · intro x
    have hcollapse := owed_collapses x (howed x).1
    rw [(howed x).2, ← hsound.queue.awaits] at hcollapse
    simpa using hcollapse
  · intro x before m after heq hm
    exact underWay_announced hm (heq ▸ hunder x)
  · intro before after heq
    exact gate_refuses (heq ▸ hgate)
  · exact Floor.line_run (.start name base max) ms

/-- Two adds in line collapse, one in hand brings the item back, and a delayed one lands after the
shutdown. -/
theorem run_faithful_collapsed :
    (Floor.machine Nat).legal (Floor.start "q" ⟨1⟩ ⟨10⟩)
        [.add 1, .addAfter 2 ⟨5⟩, .add 1, .take, .add 1, .shutDown, .done 1, .land 2, .take] = true ∧
      Faithful
        (Floor.history (.start "q" ⟨1⟩ ⟨10⟩)
          [.add 1, .addAfter 2 ⟨5⟩, .add 1, .take, .add 1, .shutDown, .done 1, .land 2, .take])
        ((Floor.machine Nat).run (.start "q" ⟨1⟩ ⟨10⟩)
          [.add 1, .addAfter 2 ⟨5⟩, .add 1, .take, .add 1, .shutDown, .done 1, .land 2,
            .take]).queue :=
  ⟨by decide, run_faithful "q" ⟨1⟩ ⟨10⟩ _ (by decide)⟩

end BorderSync.WorkQueue
