/-
# BorderSync.Proofs.Crew.Renamed -- workers know their items only by comparing them

What holds of a queue holds of the workers around it: give every item a name, the same one exactly to items
that compare equal, and a shift at the names does what the shift at the items does.
-/
import BorderSync.Proofs.Crew.Shift
import BorderSync.Proofs.Queue.Renamed

namespace BorderSync

variable {α β σ : Type}

namespace WorkQueue.Crew

/-- A crew at a queue of names. -/
def rename (f : α → β) (c : Crew α) : Crew β :=
  ⟨c.floor.rename f, c.free, c.gone⟩

variable [BEq α] [BEq β] {f : α → β} (hf : IsNaming f) (c : Crew α)

include hf

theorem ask_rename : (c.rename f).ask = c.ask.rename f := by
  have htake := c.floor.take_rename hf
  unfold ask rename
  simp only [Floor.rename, hand_rename] at htake ⊢
  cases c.floor.queue.hand with
  | item x =>
    simp only [Hand.rename]
    rw [htake]
  | finished => rfl
  | notYet => rfl

theorem outside_rename (m : WorkQueue.Move α) :
    (c.rename f).next (.outside (m.rename f)) = (c.next (.outside m)).rename f :=
  congrArg (Crew.mk · c.free c.gone) (c.floor.next_rename hf m)

theorem done_rename (x : α) : (c.rename f).next (.done (f x)) = (c.next (.done x)).rename f :=
  congrArg (Crew.mk · (c.free + 1) c.gone) (c.floor.next_rename hf (.done x))

end WorkQueue.Crew

namespace Shift

/-- A shift at a queue of names. -/
def rename (f : α → β) (s : Shift α σ) : Shift β σ :=
  ⟨s.crew.rename f, s.desks.rename f, s.phase⟩

/-- The names of what is brought. -/
theorem brings?_rename (f : α → β) (m : WorkQueue.Move α) : brings? (m.rename f) = (brings? m).map f := by
  cases m <;> rfl

theorem isUse_rename (f : α → β) (m : WorkQueue.Move α) : isUse (m.rename f) = isUse m := by
  cases m <;> rfl

variable [BEq α] [BEq β] {f : α → β} (hf : IsNaming f) (s : Shift α σ)

include hf

theorem use_rename (m : WorkQueue.Move α) : (s.rename f).use (m.rename f) = (s.use m).rename f :=
  congrArg (Shift.mk · (s.desks.rename f) s.phase) (s.crew.outside_rename hf m)

theorem turn_rename (x : α) (stage : σ) : (s.rename f).turn (f x) stage = (s.turn x stage).rename f :=
  congrArg (Shift.mk (s.crew.rename f) · s.phase) (s.desks.insert_rename hf x stage)

theorem ask_rename (fresh : σ) : (s.rename f).ask fresh = (s.ask fresh).rename f := by
  have hcrew := s.crew.ask_rename hf
  have hhand : (s.rename f).queue.hand = s.queue.hand.rename f := s.queue.hand_rename f
  unfold ask
  rw [hhand]
  show Shift.mk (s.crew.rename f).ask _ s.phase = _
  rw [hcrew]
  cases s.queue.hand with
  | item x => exact congrArg (Shift.mk _ · s.phase) (s.desks.insert_rename hf x fresh)
  | finished => rfl
  | notYet => rfl

theorem done_rename (x : α) : (s.rename f).done (f x) = (s.done x).rename f := by
  show Shift.mk ((s.crew.rename f).next (.done (f x))) ((s.desks.rename f).erase (f x)) s.phase = _
  rw [s.crew.done_rename hf, s.desks.erase_rename hf]
  rfl

theorem close_rename : (s.rename f).close = s.close.rename f :=
  congrArg (Shift.mk · (s.desks.rename f) .draining) (s.crew.outside_rename hf .shutDown)

end Shift

end BorderSync
