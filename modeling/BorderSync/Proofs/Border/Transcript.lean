/-
# BorderSync.Proofs.Border.Transcript -- what a conversation asks when answers come from a script

A script is a list of answers. A conversation hears one answer for every request, and no more when it is
over; the request that it has come to last may be without an answer. Requests that are made one after the
other, up to the first refusal, are the part of almost every conversation here that follows a list: how far
they get depends only on how many answers of the script grant something before the first one that does not.
-/
import BorderSync.Proofs.Border.Failure

namespace BorderSync.Border

/-- **The failure** that an answer is for whoever has asked. -/
def failure? : Answer → Option Error
  | .error fault => some (.transport fault)
  | .ok r => if r.isSuccess then none else some (.refused r.status (Refusal.message r.body))

/-- Exactly a refusal is a failure. -/
theorem isSome_failure? (a : Answer) : (failure? a).isSome = refuses a := by
  cases a with
  | error fault => rfl
  | ok r => cases hr : r.isSuccess <;> simp [failure?, refuses, hr]

theorem refuses_of_failure? {a : Answer} {e : Error} (ha : failure? a = some e) : refuses a = true := by
  rw [← isSome_failure?, ha, Option.isSome_some]

theorem failure?_eq_none_iff {a : Answer} : failure? a = none ↔ refuses a = false := by
  rw [← isSome_failure?, Option.isSome_eq_false_iff, Option.isNone_iff_eq_none]

/-- Number of answers before the first refusal. -/
def grantedRun (answers : List Answer) : Nat :=
  (answers.takeWhile fun a => !refuses a).length

theorem grantedRun_of_refuses {a : Answer} (ha : refuses a = true) (answers : List Answer) :
    grantedRun (a :: answers) = 0 := by
  simp [grantedRun, ha]

theorem grantedRun_of_grants {a : Answer} (ha : refuses a = false) (answers : List Answer) :
    grantedRun (a :: answers) = grantedRun answers + 1 := by
  simp [grantedRun, ha]

/-- If nothing is refused, all answers come before the first refusal. -/
theorem grantedRun_of_forall {answers : List Answer} (h : ∀ a ∈ answers, refuses a = false) :
    grantedRun answers = answers.length := by
  induction answers with
  | nil => rfl
  | cons a answers ih =>
    rw [grantedRun_of_grants (h a List.mem_cons_self),
      ih fun b hb => h b (List.mem_cons_of_mem a hb), List.length_cons]

/-- A refusal is the first one if no more than it has come before. -/
theorem grantedRun_le {answers : List Answer} {i : Nat} {a : Answer} (hi : answers[i]? = some a)
    (ha : refuses a = true) : grantedRun answers ≤ i := by
  induction answers generalizing i with
  | nil => exact absurd hi (by simp)
  | cons b answers ih =>
    cases hb : refuses b with
    | true =>
      rw [grantedRun_of_refuses hb]
      exact Nat.zero_le i
    | false =>
      rw [grantedRun_of_grants hb]
      cases i with
      | zero =>
        rw [List.getElem?_cons_zero, Option.some.injEq] at hi
        exact absurd (hi ▸ ha) (by rw [hb]; decide)
      | succ i => exact Nat.succ_le_succ (ih (List.getElem?_cons_succ ▸ hi))

namespace Call

variable {ρ σ α : Type}

/-! ## Conversations and scripts -/

/-- **What is left** of a conversation once answers have come. -/
def hear : Call ρ → List Answer → Call ρ
  | .ask _ next, a :: answers => (next a).hear answers
  | c, _ => c

/-- **The requests** of a conversation while answers come; the last one may still be open. -/
def requests : Call ρ → List Answer → List Request
  | .done _, _ => []
  | .ask q _, [] => [q]
  | .ask q next, a :: answers => q :: (next a).requests answers

/-- The result of a conversation that is over. -/
def result? : Call ρ → Option ρ
  | .done r => some r
  | .ask _ _ => none

@[simp] theorem hear_done (r : ρ) (answers : List Answer) : (Call.done r).hear answers = .done r := by
  cases answers <;> rfl

@[simp] theorem requests_done (r : ρ) (answers : List Answer) : (Call.done r).requests answers = [] := by
  cases answers <;> rfl

/-- A conversation with another result asks the same. -/
theorem requests_map (f : ρ → σ) (c : Call ρ) (answers : List Answer) :
    (c.map f).requests answers = c.requests answers := by
  induction c generalizing answers with
  | done r => exact (requests_done (f r) answers).trans (requests_done r answers).symm
  | ask q next ih =>
    cases answers with
    | nil => rfl
    | cons a answers => exact congrArg (q :: ·) (ih a answers)

theorem result?_hear_map (f : ρ → σ) (c : Call ρ) (answers : List Answer) :
    ((c.map f).hear answers).result? = (c.hear answers).result?.map f := by
  induction c generalizing answers with
  | done r =>
    rw [hear_done]
    exact congrArg result? (hear_done (f r) answers)
  | ask q next ih =>
    cases answers with
    | nil => rfl
    | cons a answers => exact ih a answers

/-- A conversation is not over exactly if its last request is open. -/
theorem result?_hear_eq_none_iff (c : Call ρ) (answers : List Answer) :
    (c.hear answers).result? = none ↔ (c.requests answers).length = answers.length + 1 := by
  induction c generalizing answers with
  | done r => simp [result?]
  | ask q next ih =>
    cases answers with
    | nil => simp [hear, requests, result?]
    | cons a answers =>
      rw [hear, requests, List.length_cons, List.length_cons, Nat.add_right_cancel_iff]
      exact ih a answers

/-! ## Going on -/

theorem andThen_assoc {τ : Type} (c : Call ρ) (f : ρ → Call σ) (g : σ → Call τ) :
    (c.andThen f).andThen g = c.andThen fun r => (f r).andThen g := by
  induction c with
  | done r => rfl
  | ask q next ih => exact congrArg (Call.ask q) (funext ih)

theorem onSuccess_assoc {τ : Type} (c : Call (Except Error ρ)) (f : ρ → Call (Except Error σ))
    (g : σ → Call (Except Error τ)) :
    (c.onSuccess f).onSuccess g = c.onSuccess fun r => (f r).onSuccess g := by
  unfold onSuccess
  rw [andThen_assoc]
  congr 1
  funext r
  cases r <;> rfl

/-- A conversation that goes on with nothing is the same. -/
theorem onSuccess_unit (c : Call (Except Error Unit)) : (c.onSuccess fun _ => .done (.ok ())) = c := by
  induction c with
  | done r => cases r <;> rfl
  | ask q next ih => exact congrArg (Call.ask q) (funext ih)

/-- Going on with no request is another result. -/
theorem onSuccess_done (c : Call (Except Error ρ)) (f : ρ → Except Error σ) :
    (c.onSuccess fun r => .done (f r)) = c.map fun
      | .ok r => f r
      | .error e => .error e := by
  unfold onSuccess map
  congr 1
  funext r
  cases r <;> rfl

theorem each_append (f : α → Call (Except Error Unit)) (as bs : List α) :
    each f (as ++ bs) = (each f as).onSuccess fun _ => each f bs := by
  induction as with
  | nil => rfl
  | cons a as ih =>
    show (f a).onSuccess (fun _ => each f (as ++ bs)) = ((f a).onSuccess fun _ => each f as).onSuccess _
    rw [onSuccess_assoc, ih]

theorem each_map {β : Type} (f : β → Call (Except Error Unit)) (g : α → β) (as : List α) :
    each f (as.map g) = each (fun a => f (g a)) as := by
  induction as with
  | nil => rfl
  | cons a as ih =>
    show (f (g a)).onSuccess (fun _ => each f (as.map g)) = _
    rw [ih]
    rfl

/-! ## Requests in turn -/

/-- One request, and nothing afterwards. -/
def once (q : Request) : Call (Except Error Unit) :=
  (Client.granted q).onSuccess fun _ => .done (.ok ())

/-- **In turn**: requests one after the other, up to the first refusal. -/
def inTurn (qs : List Request) : Call (Except Error Unit) :=
  each once qs

/-- The first request of several: a refusal ends the conversation, and otherwise the others follow. -/
theorem inTurn_cons (q : Request) (qs : List Request) :
    inTurn (q :: qs) = .ask q fun a =>
      match failure? a with
      | some e => .done (.error e)
      | none => inTurn qs := by
  refine congrArg (Call.ask q) (funext fun a => ?_)
  cases a with
  | error fault => rfl
  | ok r =>
    simp only [failure?]
    split <;> rfl

/-- **How far requests get**: as many as are granted, and the one that is not or has no answer. -/
theorem requests_inTurn (qs : List Request) (answers : List Answer) :
    (inTurn qs).requests answers = qs.take (grantedRun answers + 1) := by
  induction qs generalizing answers with
  | nil => exact (requests_done _ answers).trans List.take_nil.symm
  | cons q qs ih =>
    rw [inTurn_cons]
    cases answers with
    | nil => rfl
    | cons a answers =>
      rw [requests, List.take_succ_cons]
      cases ha : failure? a with
      | some e => simp [grantedRun_of_refuses (refuses_of_failure? ha)]
      | none =>
        simp only
        rw [ih, grantedRun_of_grants (failure?_eq_none_iff.mp ha)]

/-- **How requests end**: well once all are granted, and with the first refusal before. -/
theorem result?_inTurn (qs : List Request) (answers : List Answer) :
    ((inTurn qs).hear answers).result? =
      if qs.length ≤ grantedRun answers then some (.ok ())
      else (answers[grantedRun answers]?.bind failure?).map .error := by
  induction qs generalizing answers with
  | nil => exact (congrArg result? (hear_done _ answers)).trans (if_pos (Nat.zero_le _)).symm
  | cons q qs ih =>
    rw [inTurn_cons]
    cases answers with
    | nil => rfl
    | cons a answers =>
      rw [hear]
      cases ha : failure? a with
      | some e => simp [grantedRun_of_refuses (refuses_of_failure? ha), result?, ha]
      | none =>
        simp only
        rw [ih, grantedRun_of_grants (failure?_eq_none_iff.mp ha), List.length_cons, List.getElem?_cons_succ]
        simp only [Nat.add_le_add_iff_right]

/-- **The first failure is the end**: the request that it answers is the last one, and it is the result. -/
theorem stops_inTurn {qs : List Request} {answers : List Answer} {i : Nat} {q : Request} {a : Answer}
    {e : Error} (hq : ((inTurn qs).requests answers)[i]? = some q) (ha : answers[i]? = some a)
    (he : failure? a = some e) :
    ((inTurn qs).requests answers).length = i + 1 ∧
      ((inTurn qs).hear answers).result? = some (.error e) := by
  rw [requests_inTurn] at hq ⊢
  rw [result?_inTurn]
  have hbefore : i < grantedRun answers + 1 :=
    Nat.lt_of_lt_of_le (List.getElem?_eq_some_iff.mp hq).1 (List.length_take_le _ _)
  rw [List.getElem?_take_of_lt hbefore] at hq
  have hlength : i < qs.length := (List.getElem?_eq_some_iff.mp hq).1
  have hrun : grantedRun answers = i :=
    Nat.le_antisymm (grantedRun_le ha (refuses_of_failure? he)) (Nat.le_of_lt_succ hbefore)
  rw [hrun, List.length_take, if_neg (Nat.not_le.mpr hlength), ha]
  exact ⟨Nat.min_eq_left hlength, by simp [he]⟩

end Call

end BorderSync.Border
