/-
# BorderSync.Proofs.Machine -- systems that are moved from outside

What several tasks do to shared parts is told as one list of moves: each move is what one of them
does while nobody else can look. A machine says which moves a state allows and where they lead. All
interleavings are then all lists of moves that are legal, and what every one of them keeps is shown
for a single move.

A run can be written down: `log` joins the marks that the moves leave, in order.
-/

namespace BorderSync

/-- **Machine**: which moves a state allows, and the state after a move. -/
structure Machine (σ μ : Type) where
  allows : σ → μ → Bool
  next : σ → μ → σ

namespace Machine

variable {σ μ ε : Type} (M : Machine σ μ)

/-- The state after a list of moves. -/
def run (s : σ) : List μ → σ
  | [] => s
  | m :: ms => run (M.next s m) ms

/-- Every move is allowed when it is made. -/
def legal (s : σ) : List μ → Bool
  | [] => true
  | m :: ms => M.allows s m && legal (M.next s m) ms

/-- The marks that a list of moves leaves. -/
def log (mark : σ → μ → List ε) (s : σ) : List μ → List ε
  | [] => []
  | m :: ms => mark s m ++ log mark (M.next s m) ms

@[simp] theorem run_nil (s : σ) : M.run s [] = s := rfl

@[simp] theorem run_cons (s : σ) (m : μ) (ms : List μ) :
    M.run s (m :: ms) = M.run (M.next s m) ms := rfl

@[simp] theorem log_nil (mark : σ → μ → List ε) (s : σ) : M.log mark s [] = [] := rfl

@[simp] theorem log_cons (mark : σ → μ → List ε) (s : σ) (m : μ) (ms : List μ) :
    M.log mark s (m :: ms) = mark s m ++ M.log mark (M.next s m) ms := rfl

@[simp] theorem legal_nil (s : σ) : M.legal s [] = true := rfl

theorem legal_cons (s : σ) (m : μ) (ms : List μ) :
    M.legal s (m :: ms) = true ↔ M.allows s m = true ∧ M.legal (M.next s m) ms = true :=
  Bool.and_eq_true_iff

theorem run_append (s : σ) (ms₁ ms₂ : List μ) :
    M.run s (ms₁ ++ ms₂) = M.run (M.run s ms₁) ms₂ := by
  induction ms₁ generalizing s with
  | nil => rfl
  | cons m ms₁ ih => exact ih (M.next s m)

theorem log_append (mark : σ → μ → List ε) (s : σ) (ms₁ ms₂ : List μ) :
    M.log mark s (ms₁ ++ ms₂) = M.log mark s ms₁ ++ M.log mark (M.run s ms₁) ms₂ := by
  induction ms₁ generalizing s with
  | nil => rfl
  | cons m ms₁ ih =>
    rw [List.cons_append, log_cons, log_cons, ih (M.next s m), run_cons, List.append_assoc]

theorem legal_append (s : σ) (ms₁ ms₂ : List μ) :
    M.legal s (ms₁ ++ ms₂) = true ↔
      M.legal s ms₁ = true ∧ M.legal (M.run s ms₁) ms₂ = true := by
  induction ms₁ generalizing s with
  | nil => simp
  | cons m ms₁ ih =>
    rw [List.cons_append, legal_cons, legal_cons, ih (M.next s m), run_cons, and_assoc]

/-- **What every move keeps, every run keeps.** -/
theorem run_keeps {P : σ → Prop}
    (step : ∀ s m, P s → M.allows s m = true → P (M.next s m)) {s : σ} (hs : P s)
    {ms : List μ} (hl : M.legal s ms = true) : P (M.run s ms) := by
  induction ms generalizing s with
  | nil => exact hs
  | cons m ms ih =>
    obtain ⟨ha, hl⟩ := (M.legal_cons s m ms).mp hl
    exact ih (step s m hs ha) hl

/-- **What every move keeps of a state and the log so far, every run keeps.** -/
theorem log_keeps {mark : σ → μ → List ε} {P : σ → List ε → Prop}
    (step : ∀ s l m, P s l → M.allows s m = true → P (M.next s m) (l ++ mark s m))
    {s : σ} {l : List ε} (hs : P s l) {ms : List μ} (hl : M.legal s ms = true) :
    P (M.run s ms) (l ++ M.log mark s ms) := by
  induction ms generalizing s l with
  | nil => simpa using hs
  | cons m ms ih =>
    obtain ⟨ha, hl⟩ := (M.legal_cons s m ms).mp hl
    rw [run_cons, log_cons, ← List.append_assoc]
    exact ih (step s l m hs ha) hl

/-- A mark in a log was left by a move, in the state to which the moves before it led. -/
theorem log_split {mark : σ → μ → List ε} {s : σ} {ms : List μ} {before after : List ε} {e : ε}
    (h : M.log mark s ms = before ++ e :: after) :
    ∃ ms₁ m ms₂ l₁ l₂, ms = ms₁ ++ m :: ms₂ ∧ mark (M.run s ms₁) m = l₁ ++ e :: l₂ ∧
      before = M.log mark s ms₁ ++ l₁ := by
  induction ms generalizing s before with
  | nil => simp at h
  | cons m ms ih =>
    rw [log_cons] at h
    -- the mark belongs to the first move, or the marks of that move are all before it
    rcases List.append_eq_append_iff.mp h with ⟨l, hbefore, hrest⟩ | ⟨l, hmark, hrest⟩
    · obtain ⟨ms₁, m', ms₂, l₁, l₂, rfl, hm', rfl⟩ := ih hrest
      exact ⟨m :: ms₁, m', ms₂, l₁, l₂, rfl, hm', by rw [hbefore, log_cons, List.append_assoc]⟩
    · cases l with
      | nil =>
        obtain ⟨ms₁, m', ms₂, l₁, l₂, rfl, hm', hnil⟩ := ih (show _ = [] ++ e :: after from hrest.symm)
        refine ⟨m :: ms₁, m', ms₂, l₁, l₂, rfl, hm', ?_⟩
        rw [log_cons, List.append_assoc, ← hnil, hmark, List.append_nil, List.append_nil]
      | cons e' l =>
        obtain ⟨rfl, rfl⟩ := List.cons.inj hrest
        exact ⟨[], m, ms, before, l, rfl, hmark, by simp⟩

/-! ## What is open is answered -/

section Answers

variable (mark : σ → μ → List ε) {P : σ → Prop} (Open : σ → Prop) (answers : ε → Prop)
  (keeps : ∀ s m, P s → M.allows s m = true → P (M.next s m))
  (step : ∀ s m, P s → M.allows s m = true → Open s →
    Open (M.next s m) ∨ ∃ k ∈ mark s m, answers k)

include keeps step

/-- What stays open until a mark answers it has been answered, if it is not open in the end. -/
theorem log_settles {s : σ} (hs : P s) {ms : List μ} (hl : M.legal s ms = true) (hopen : Open s) :
    Open (M.run s ms) ∨ ∃ k ∈ M.log mark s ms, answers k := by
  induction ms generalizing s with
  | nil => exact .inl hopen
  | cons m ms ih =>
    obtain ⟨ha, hl⟩ := (M.legal_cons s m ms).mp hl
    rcases step s m hs ha hopen with hopen | ⟨k, hk, hanswers⟩
    · rcases ih (keeps s m hs ha) hl hopen with hopen | ⟨k, hk, hanswers⟩
      · exact .inl hopen
      · exact .inr ⟨k, List.mem_append_right _ hk, hanswers⟩
    · exact .inr ⟨k, List.mem_append_left _ hk, hanswers⟩

/-- **A mark that opens something is followed by an answer**, if it is not open in the end. -/
theorem log_answers {e : ε}
    (opens : ∀ s m, P s → M.allows s m = true → e ∈ mark s m → Open (M.next s m))
    {s : σ} (hs : P s) {ms : List μ} (hl : M.legal s ms = true) {before after : List ε}
    (h : M.log mark s ms = before ++ e :: after) :
    Open (M.run s ms) ∨ ∃ k ∈ after, answers k := by
  induction ms generalizing s before with
  | nil => simp at h
  | cons m ms ih =>
    obtain ⟨ha, hl⟩ := (M.legal_cons s m ms).mp hl
    rw [log_cons] at h
    -- the mark belongs to the first move, or the marks of that move are all before it
    rcases List.append_eq_append_iff.mp h with ⟨l, -, hrest⟩ | ⟨l, hmark, hrest⟩
    · exact ih (keeps s m hs ha) hl hrest
    · cases l with
      | nil => exact ih (keeps s m hs ha) hl (show _ = [] ++ e :: after from hrest.symm)
      | cons e' l =>
        obtain ⟨rfl, rfl⟩ := List.cons.inj hrest
        have hopen := opens s m hs ha (by rw [hmark]; simp)
        rcases M.log_settles mark Open answers keeps step (keeps s m hs ha) hl hopen with
          hopen | ⟨k, hk, hanswers⟩
        · exact .inl hopen
        · exact .inr ⟨k, List.mem_append_right _ hk, hanswers⟩

end Answers

/-- **Simulation.** If the marks of every move are a legal run of a second machine, which takes the
view of the state to the view of the state after the move, then so is the log of every run. -/
theorem log_simulates {τ : Type} (A : Machine τ ε) {mark : σ → μ → List ε} {v : σ → τ}
    {P : σ → Prop} (keeps : ∀ s m, P s → M.allows s m = true → P (M.next s m))
    (step : ∀ s m, P s → M.allows s m = true →
      A.legal (v s) (mark s m) = true ∧ A.run (v s) (mark s m) = v (M.next s m))
    {s : σ} (hs : P s) {ms : List μ} (hl : M.legal s ms = true) :
    A.legal (v s) (M.log mark s ms) = true ∧
      A.run (v s) (M.log mark s ms) = v (M.run s ms) := by
  induction ms generalizing s with
  | nil => exact ⟨rfl, rfl⟩
  | cons m ms ih =>
    obtain ⟨ha, hl⟩ := (M.legal_cons s m ms).mp hl
    obtain ⟨hlegal, hrun⟩ := step s m hs ha
    obtain ⟨hlegal', hrun'⟩ := ih (keeps s m hs ha) hl
    refine ⟨?_, ?_⟩
    · rw [log_cons, A.legal_append, hrun]
      exact ⟨hlegal, hlegal'⟩
    · rw [log_cons, A.run_append, hrun]
      exact hrun'

end Machine

end BorderSync
