/-
# BorderSync.Proofs.Endless -- runs without end

That something happens at last is told of runs that never end. Tasks may be slow, and one may overtake
another any number of times; all that is asked is that moves of a kind are not put off for ever: again and
again one of them is made, or there is none to make. If each of them lowers a rank that nothing raises, the
time comes when there is none to make.
-/
import BorderSync.Proofs.Machine

namespace BorderSync.Machine

variable {σ μ : Type} (M : Machine σ μ)

/-- The state after the first `i` of endlessly many moves. -/
def after (s : σ) (f : Nat → μ) : Nat → σ
  | 0 => s
  | i + 1 => M.next (after s f i) (f i)

/-- **Endless run**: every move is allowed when it is made. -/
def Endless (s : σ) (f : Nat → μ) : Prop :=
  ∀ i, M.allows (M.after s f i) (f i) = true

/-- No move of a kind is allowed. -/
def Quiet (works : σ → μ → Bool) (s : σ) : Prop :=
  ∀ m, M.allows s m = true → works s m = false

/-- **Fair** to moves of a kind: again and again one of them is made, or none is allowed. -/
def Fair (s : σ) (f : Nat → μ) (works : σ → μ → Bool) : Prop :=
  ∀ i, ∃ j, i ≤ j ∧ (works (M.after s f j) (f j) = true ∨ M.Quiet works (M.after s f j))

@[simp] theorem after_zero (s : σ) (f : Nat → μ) : M.after s f 0 = s := rfl

theorem after_succ (s : σ) (f : Nat → μ) (i : Nat) :
    M.after s f (i + 1) = M.next (M.after s f i) (f i) := rfl

namespace Endless

variable {M} {s : σ} {f : Nat → μ} (h : M.Endless s f)

include h

/-- What every move keeps holds for ever. -/
theorem keeps {P : σ → Prop} (step : ∀ s m, P s → M.allows s m = true → P (M.next s m)) {i j : Nat}
    (hi : P (M.after s f i)) (hij : i ≤ j) : P (M.after s f j) := by
  induction hij with
  | refl => exact hi
  | step hij ih => exact step _ _ ih (h _)

omit h in
/-- **Work comes to an end.** When no move raises a rank, moves of a kind lower it, and the run is fair to
them, then none of them is allowed at last. -/
theorem exhausts {β : Type} {r : β → β → Prop} (hwf : WellFounded r) (rank : σ → β)
    {works : σ → μ → Bool} (hfair : M.Fair s f works) {i : Nat}
    (step : ∀ j, i ≤ j → rank (M.after s f (j + 1)) = rank (M.after s f j) ∨
      r (rank (M.after s f (j + 1))) (rank (M.after s f j)))
    (work : ∀ j, i ≤ j → works (M.after s f j) (f j) = true →
      r (rank (M.after s f (j + 1))) (rank (M.after s f j))) :
    ∃ j, i ≤ j ∧ M.Quiet works (M.after s f j) := by
  -- by induction on the rank, and from one moment to that of the next work by induction on the time
  suffices hrank : ∀ b k, i ≤ k → rank (M.after s f k) = b →
      ∃ j, i ≤ j ∧ M.Quiet works (M.after s f j) from hrank _ i (Nat.le_refl i) rfl
  intro b
  induction b using hwf.induction with
  | _ b ih =>
    intro k hik hk
    obtain ⟨j, hkj, hj⟩ := hfair k
    obtain ⟨d, rfl⟩ := Nat.exists_eq_add_of_le hkj
    clear hkj
    induction d generalizing k with
    | zero =>
      rcases hj with hworks | hquiet
      · exact ih _ (hk ▸ work k hik hworks) (k + 1) (Nat.le_succ_of_le hik) rfl
      · exact ⟨k, hik, hquiet⟩
    | succ d ihd =>
      rcases step k hik with hsame | hless
      · rw [show k + (d + 1) = k + 1 + d by omega] at hj
        exact ihd (k + 1) (Nat.le_succ_of_le hik) (hsame.trans hk) hj
      · exact ih _ (hk ▸ hless) (k + 1) (Nat.le_succ_of_le hik) rfl

end Endless

/-! ## Going on for ever -/

/-- A list of moves, and then the same move again and again. -/
def thenEver (ms : List μ) (m : μ) (i : Nat) : μ :=
  ms.getD i m

theorem thenEver_of_le {ms : List μ} {i : Nat} (h : ms.length ≤ i) (m : μ) : thenEver ms m i = m := by
  simp [thenEver, h]

theorem after_shift (s : σ) (f : Nat → μ) (i : Nat) :
    M.after s f (i + 1) = M.after (M.next s (f 0)) (fun k => f (k + 1)) i := by
  induction i with
  | zero => rfl
  | succ i ih => rw [after_succ, ih, after_succ]

theorem after_thenEver (s : σ) (ms : List μ) (m : μ) : M.after s (thenEver ms m) ms.length = M.run s ms := by
  induction ms generalizing s with
  | nil => rfl
  | cons m' ms ih => exact (M.after_shift s _ ms.length).trans (ih (M.next s m'))

/-- A legal run goes on for ever with a move that is always allowed. -/
theorem endless_thenEver {s : σ} {ms : List μ} {m : μ} (hl : M.legal s ms = true)
    (hm : ∀ t, M.allows t m = true) : M.Endless s (thenEver ms m) := by
  induction ms generalizing s with
  | nil => exact fun i => hm _
  | cons m' ms ih =>
    obtain ⟨ha, hl⟩ := (M.legal_cons s m' ms).mp hl
    intro i
    cases i with
    | zero => exact ha
    | succ i =>
      rw [M.after_shift]
      exact ih hl i

end BorderSync.Machine
