/-
# BorderSync.Proofs.Crew.LastOut -- the last worker leaves an empty queue

A worker that finds nothing in a queue that is shut down leaves, also while others still have items in
hand. One of these may have been added again meanwhile; it comes back when it is done, and then the
worker who was done with it is there to ask for it. So whatever the queue had accepted before has been
handed out when the last worker leaves.
-/
import BorderSync.Proofs.Crew.Basic
import BorderSync.Proofs.Queue.HandOut

namespace BorderSync.WorkQueue

variable {α : Type} [BEq α]

/-! ## What has to come in a run -/

/-- What is owed and not owed at the end has been handed out. -/
theorem owed_handed {x : α} {l : List (Mark α)} (h : (owed x).run true l = false) :
    ∃ k ∈ l, k.hands x = true := by
  by_cases hany : l.any (Mark.hands x) = true
  · exact List.any_eq_true.mp hany
  · have hstays : (owed x).run true l = true := owed_stays (by simpa using hany)
    exact absurd (h.symm.trans hstays) Bool.false_ne_true

/-- Without a landing the number of delayed adds under way does not fall. -/
theorem underWay_stays {x : α} {n : Nat} {l : List (Mark α)} (h : ∀ m ∈ l, m.lands x = false) :
    n ≤ (underWay x).run n l := by
  induction l generalizing n with
  | nil => exact Nat.le_refl n
  | cons m l ih =>
    obtain ⟨hm, hl⟩ := List.forall_mem_cons.mp h
    have hnext : n ≤ (underWay x).next n m := by
      simp only [underWay, hm, Bool.false_eq_true, if_false]
      split <;> omega
    exact Nat.le_trans hnext (ih hl)

/-- If fewer are under way at the end, one has landed. -/
theorem underWay_landed {x : α} {n : Nat} {l : List (Mark α)} (h : (underWay x).run n l < n) :
    ∃ k ∈ l, k.lands x = true := by
  by_cases hany : l.any (Mark.lands x) = true
  · exact List.any_eq_true.mp hany
  · have hstays : n ≤ (underWay x).run n l := underWay_stays (by simpa using hany)
    omega

/-- What lands is accepted. -/
theorem Mark.accepts_of_lands {x : α} {m : Mark α} (h : m.lands x = true) : m.accepts x = true := by
  cases m with
  | landed y => exact h
  | _ => exact absurd h Bool.false_ne_true

namespace Crew

/-- The marks of a run. -/
def history (c : Crew α) (ms : List (Move α)) : List (Mark α) :=
  c.floor.history (ms.map Move.onFloor)

/-- The item waits, is to come back when it is done, or is under way to the queue. -/
def expects (c : Crew α) (x : α) : Bool :=
  c.floor.queue.awaits x || c.floor.coming.contains x

/-! ## What a queue has accepted -/

section Run

variable [EquivBEq α] {c : Crew α} {n : Nat} {ms : List (Move α)}

/-- For one item, the marks of a run are those of the machine that owes it while it is dirty. -/
theorem owed_run (x : α) (h : c.floor.Sound) (hl : (machine α).legal c ms = true) :
    (owed x).run (c.floor.queue.dirty.contains x) (c.history ms) =
      ((machine α).run c ms).floor.queue.dirty.contains x := by
  rw [(run_onFloor hl).2]
  exact ((Floor.machine α).log_simulates (owed x) (v := fun s : Floor α => s.queue.dirty.contains x)
    (fun s m hs ha => hs.next m ha) (fun s m hs _ => Floor.owed_step x s m hs) h (run_onFloor hl).1).2

/-- For one item, the marks of a run are those of the machine that counts its delayed adds. -/
theorem underWay_run (x : α) (h : c.floor.Sound) (hl : (machine α).legal c ms = true) :
    (underWay x).run (c.floor.coming.countP (x == ·)) (c.history ms) =
      ((machine α).run c ms).floor.coming.countP (x == ·) := by
  rw [(run_onFloor hl).2]
  exact ((Floor.machine α).log_simulates (underWay x) (v := fun s : Floor α => s.coming.countP (x == ·))
    (fun s m hs ha => hs.next m ha) (fun s m _ ha => Floor.underWay_step x s m ha) h
    (run_onFloor hl).1).2

/-- What is dirty is handed out, unless it is dirty at the end. -/
theorem handed_of_dirty {x : α} (h : c.floor.Sound) (hl : (machine α).legal c ms = true)
    (hdirty : c.floor.queue.dirty.contains x = true)
    (hend : ((machine α).run c ms).floor.queue.dirty.contains x = false) :
    ∃ k ∈ c.history ms, k.hands x = true := by
  have howed := owed_run x h hl
  rw [hdirty, hend] at howed
  exact owed_handed howed

/-- An accepted add is answered, unless its item is dirty at the end. -/
theorem handed_of_accepts {x : α} (h : c.floor.Sound) (hl : (machine α).legal c ms = true)
    (hend : ((machine α).run c ms).floor.queue.dirty.contains x = false)
    {before after : List (Mark α)} {m : Mark α} (hsplit : c.history ms = before ++ m :: after)
    (hm : m.accepts x = true) : ∃ k ∈ after, k.hands x = true := by
  have howed := owed_run x h hl
  rw [hsplit, hend] at howed
  rcases owed_answered hm with hhanded | hstill
  · exact hhanded
  · exact absurd (howed.symm.trans hstill) Bool.false_ne_true

/-- What is under way is handed out, if nothing is under way and the item is not dirty at the end. -/
theorem handed_of_coming {x : α} (h : c.floor.Sound) (hl : (machine α).legal c ms = true)
    (hcoming : c.floor.coming.contains x = true)
    (hlanded : ((machine α).run c ms).floor.coming = [])
    (hend : ((machine α).run c ms).floor.queue.dirty.contains x = false) :
    ∃ k ∈ c.history ms, k.hands x = true := by
  have hpos : 0 < c.floor.coming.countP (x == ·) := by
    obtain ⟨y, hy, hxy⟩ := List.contains_iff_exists_mem_beq.mp hcoming
    exact List.countP_pos_iff.mpr ⟨y, hy, hxy⟩
  have hunder := underWay_run x h hl
  rw [hlanded, List.countP_nil] at hunder
  -- the count falls to zero, so that the item lands; what has landed is accepted
  obtain ⟨k, hk, hlands⟩ := underWay_landed (hunder ▸ hpos)
  obtain ⟨before, after, hsplit⟩ := List.append_of_mem hk
  obtain ⟨j, hj, hhands⟩ := handed_of_accepts h hl hend hsplit (Mark.accepts_of_lands hlands)
  exact ⟨j, hsplit ▸ List.mem_append_right _ (List.mem_cons_of_mem _ hj), hhands⟩

end Run

/-! ## When all have left -/

/-- A queue without anything in it. -/
structure IsEmpty (q : WorkQueue α) : Prop where
  waiting : q.waiting = []
  dirty : q.dirty = []
  processing : q.processing = []
  delayed : q.delayed = 0

/-- When all workers have left, nothing is left. -/
theorem Sound.isEmpty [EquivBEq α] {c : Crew α} {n : Nat} (h : c.Sound n) (hn : 0 < n)
    (hgone : c.gone = n) : IsEmpty c.floor.queue := by
  have hpos : 0 < c.gone := hgone ▸ hn
  have hwaiting := h.emptied hpos hgone
  have hprocessing : c.floor.queue.processing = [] := by
    refine List.eq_nil_iff_forall_not_mem.mpr fun x hx => ?_
    have hhand := h.floor.in_hand x
    rw [h.hands_of_gone hgone, List.contains_iff_exists_mem_beq.mpr ⟨x, hx, BEq.rfl⟩] at hhand
    exact absurd hhand (by simp)
  refine ⟨hwaiting, ?_, hprocessing, (h.left hpos).2⟩
  -- what is dirty waits or is in hand
  refine List.eq_nil_iff_forall_not_mem.mpr fun x hx => ?_
  have hwaits := h.floor.queue.waits x
  rw [hwaiting, hprocessing, List.contains_iff_exists_mem_beq.mpr ⟨x, hx, BEq.rfl⟩] at hwaits
  exact absurd hwaits (by simp)

/-- **Emptied**: how a run ends with the departure of the last worker. -/
structure Emptied (c : Crew α) (ms : List (Move α)) : Prop where
  /-- Nothing is waiting, dirty, in hand or delayed. -/
  is_empty : IsEmpty ((machine α).run c ms).floor.queue
  /-- Whatever was accepted, for now or for later, before the shutdown or after it, has been handed out
  afterwards. -/
  answered : ∀ x before m after, c.history ms = before ++ m :: after →
    m.accepts x = true ∨ m.announces x = true → ∃ k ∈ after, k.hands x = true
  /-- Whatever the queue expected at some moment has been handed out afterwards, however many workers
  had left by then. -/
  kept : ∀ x ms₁ ms₂, ms = ms₁ ++ ms₂ → ((machine α).run c ms₁).expects x = true →
    ∃ k ∈ ((machine α).run c ms₁).history ms₂, k.hands x = true

/-- **The last worker leaves an empty queue.** This holds for any number of workers and whatever else is
done to the queue in between. -/
theorem run_emptied [EquivBEq α] (name : String) (base max : Duration) (n : Nat) (hn : 0 < n)
    (ms : List (Move α)) (hl : (machine α).legal (start name base max n) ms = true)
    (hgone : ((machine α).run (start name base max n) ms).gone = n) :
    Emptied (start name base max n) ms := by
  have hstart : (start name base max n : Crew α).Sound n := .start name base max n
  have hsound := hstart.run hl
  have hempty := hsound.isEmpty hn hgone
  have hcoming : ((machine α).run (start name base max n) ms).floor.coming = [] :=
    hsound.coming_of_gone (by omega)
  have hdirty : ∀ x, ((machine α).run (start name base max n) ms).floor.queue.dirty.contains x = false := by
    intro x
    rw [hempty.dirty]
    rfl
  refine ⟨hempty, ?_, ?_⟩
  · intro x before m after hsplit haccepted
    rcases haccepted with haccepts | hannounces
    · exact handed_of_accepts hstart.floor hl (hdirty x) hsplit haccepts
    · -- a delayed add that was announced has landed since, which is an accepted add
      have hunder := underWay_run x hstart.floor hl
      have hnext : ∀ i, (underWay x).next i m = i + 1 := fun i => by simp [underWay, hannounces]
      rw [hsplit, hcoming, List.countP_nil, Machine.run_append, Machine.run_cons, hnext] at hunder
      obtain ⟨k, hk, hlands⟩ := underWay_landed (hunder ▸ Nat.succ_pos _)
      obtain ⟨a, b, rfl⟩ := List.append_of_mem hk
      have hsplit' : (start name base max n).history ms = (before ++ m :: a) ++ k :: b := by
        simpa using hsplit
      obtain ⟨j, hj, hhands⟩ := handed_of_accepts hstart.floor hl (hdirty x) hsplit'
        (Mark.accepts_of_lands hlands)
      exact ⟨j, List.mem_append_right _ (List.mem_cons_of_mem _ hj), hhands⟩
  · rintro x ms₁ ms₂ rfl hexpects
    obtain ⟨hl₁, hl₂⟩ := ((machine α).legal_append _ _ _).mp hl
    have hmid := hstart.run hl₁
    rw [(machine α).run_append] at hcoming hdirty
    rw [expects, hmid.floor.queue.awaits, Bool.or_eq_true] at hexpects
    rcases hexpects with hwaits | hcomes
    · exact handed_of_dirty hmid.floor hl₂ hwaits (hdirty x)
    · exact handed_of_coming hmid.floor hl₂ hcomes hcoming (hdirty x)

/-- One worker leaves while the other has an item in hand that was added again. -/
theorem run_emptied_readded :
    (machine Nat).legal (start "q" ⟨1⟩ ⟨10⟩ 2)
        [.outside (.addAfter 2 ⟨5⟩), .outside (.add 1), .ask, .outside (.add 1), .outside (.land 2),
          .ask, .done 2, .outside .shutDown, .ask, .done 1, .ask, .done 1, .ask] = true ∧
      Emptied (start "q" ⟨1⟩ ⟨10⟩ 2)
        [.outside (.addAfter 2 ⟨5⟩), .outside (.add 1), .ask, .outside (.add 1), .outside (.land 2),
          .ask, .done 2, .outside .shutDown, .ask, .done 1, .ask, .done 1, .ask] :=
  ⟨by decide, run_emptied "q" ⟨1⟩ ⟨10⟩ 2 (by decide) _ (by decide) (by decide)⟩

end Crew

end BorderSync.WorkQueue
