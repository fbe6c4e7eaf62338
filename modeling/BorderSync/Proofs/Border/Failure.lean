/-
# BorderSync.Proofs.Border.Failure -- the first failure ends a conversation

Every request of an update may fail: nothing comes back, or the server refuses. Whichever request it is, the
conversation is over then, and its result is an error.
-/
import BorderSync.Proofs.Border.Update

namespace BorderSync.Border

/-- Nothing came back, or the server has refused. -/
def refuses : Answer → Bool
  | .error _ => true
  | .ok r => !r.isSuccess

namespace Call

variable {ρ σ α : Type}

/-- **Gives up**: whatever the answers are, the first refusal ends the conversation with an error. -/
def GivesUp : Call (Except Error ρ) → Prop
  | .done _ => True
  | .ask _ next => ∀ a, (refuses a = true → ∃ e, next a = .done (.error e)) ∧ (next a).GivesUp

theorem GivesUp.onSuccess {c : Call (Except Error ρ)} {f : ρ → Call (Except Error σ)} (hc : c.GivesUp)
    (hf : ∀ r, (f r).GivesUp) : (c.onSuccess f).GivesUp := by
  induction c with
  | done r =>
    cases r with
    | ok r => exact hf r
    | error e => trivial
  | ask q next ih =>
    intro a
    obtain ⟨hrefused, hnext⟩ := hc a
    refine ⟨fun ha => ?_, ih a hnext⟩
    obtain ⟨e, he⟩ := hrefused ha
    exact ⟨e, congrArg (Call.onSuccess · f) he⟩

theorem GivesUp.attempt {r : Except Error α} {f : α → Call (Except Error σ)}
    (hf : ∀ a, (f a).GivesUp) : (Call.attempt r f).GivesUp := by
  cases r with
  | ok a => exact hf a
  | error e => trivial

theorem GivesUp.each {f : α → Call (Except Error Unit)} (hf : ∀ a, (f a).GivesUp) (as : List α) :
    (Call.each f as).GivesUp := by
  induction as with
  | nil => trivial
  | cons a as ih => exact (hf a).onSuccess fun _ => ih

end Call

namespace Client

variable (c : Client) (context : Context) (upstream : String)

theorem granted_givesUp (q : Request) : (granted q).GivesUp := by
  intro a
  cases a with
  | error fault => exact ⟨fun _ => ⟨_, rfl⟩, trivial⟩
  | ok r =>
    by_cases hr : r.isSuccess = true
    · refine ⟨fun ha => absurd ha (by simp [refuses, hr]), ?_⟩
      simp only [hr, if_true]
      trivial
    · simp only [hr, Bool.false_eq_true, if_false]
      exact ⟨fun _ => ⟨_, rfl⟩, trivial⟩

theorem list_givesUp : (c.list context upstream).GivesUp :=
  .attempt fun _ => (granted_givesUp _).onSuccess fun r => by split <;> trivial

theorem post_givesUp (e : Entry) : (c.post context upstream e).GivesUp :=
  .attempt fun _ => (granted_givesUp _).onSuccess fun _ => trivial

theorem delete_givesUp (id : Int) : (c.delete context upstream id).GivesUp :=
  .attempt fun _ => (granted_givesUp _).onSuccess fun _ => trivial

theorem writing_givesUp (posts : List Entry) (deletions : Shelf) (changes : Changes) :
    (c.writing context upstream posts deletions changes).GivesUp :=
  (Call.GivesUp.each (c.post_givesUp context upstream) posts).onSuccess fun _ =>
    (Call.GivesUp.each (fun d : Int × String => c.delete_givesUp context upstream d.1) deletions).onSuccess
      fun _ => trivial

/-- **An update gives up at the first refusal.** -/
theorem update_givesUp (wanted : List Entry) : (c.update context upstream wanted).GivesUp :=
  (c.list_givesUp context upstream).onSuccess fun _ => c.writing_givesUp context upstream _ _ _

/-- An update whose list cannot be read is over. -/
theorem update_unreadable {l : Endpoint.Location} (hl : c.serversAt context upstream none = .ok l)
    (wanted : List Entry) {q : Request} {next : Answer → Call (Except Error Changes)}
    (hask : c.update context upstream wanted = .ask q next) {r : Response} (hr : r.isSuccess = true)
    (hbody : Entry.decodeList? context r.body = none) : ∃ e, next (.ok r) = .done (.error e) := by
  obtain ⟨next', hask', hnext'⟩ := (list_asks hl).onSuccess fun listed =>
    c.writing context upstream (Reconcile.additions listed wanted) (Reconcile.removals listed wanted)
      ⟨(Reconcile.additions listed wanted).map Entry.server,
        (Reconcile.removals listed wanted).map Prod.snd⟩
  obtain ⟨-, rfl⟩ : q = { method := .get, location := l } ∧ next = next' :=
    Call.ask.inj (hask.symm.trans hask')
  refine ⟨.transport .badBody, ?_⟩
  rw [hnext' r hr]
  simp only [hbody]
  rfl

end Client

end BorderSync.Border
