/-
# BorderSync.Proofs.Relay.TaskTurn -- the turn of any task at work

Consumers, workers and timers do all that is done to changes and updates. What such a task does in one turn
is a list of moves of a relay that has the same consumer, worker or timer.
-/
import BorderSync.Proofs.Relay.ConsumerTurn
import BorderSync.Proofs.Relay.WorkerTurn

namespace BorderSync

open Event

namespace Relay

variable {p : Pipeline} {s : Relay} {t : TaskId}

/-- A delayed change lands. -/
theorem follows_landChange {c : Change} (h : Agrees p s) (hcoming : s.shift.crew.floor.coming.contains c = true) :
    Follows p ((p.endTask t).withInbound (p.inbound.land c)) s { s with shift := s.shift.use (.land c) } := by
  refine .quiet (m := .use (.land c)) h (Bool.and_eq_true_iff.mpr ⟨rfl, hcoming⟩) rfl ?_ rfl
  rw [Pipeline.shown_withInbound, SharedQueue.land, SharedQueue.queue_become]
  exact congrArg (fun v : Shown => { v with inbound := v.inbound.land c }) h

/-- A delayed update lands. -/
theorem follows_landUpdate {u : Update} (h : Agrees p s)
    (hcoming : s.station.shift.crew.floor.coming.contains u = true) :
    Follows p ((p.endTask t).withOutbound (p.outbound.land u)) s
      { s with station := s.station.use (.land u) } := by
  have hqueue : p.outbound.queue = s.station.queue := congrArg Shown.outbound h
  refine .station (m := .land u) h hcoming (by simp) rfl ?_ rfl rfl
  rw [Pipeline.shown_withOutbound, SharedQueue.land, SharedQueue.queue_become, hqueue,
    List.flatMap_nil, Pipeline.stamped_nil, List.append_nil]
  rfl

/-- **Attended**: the relay has who does this task. The tasks of the runs themselves are not meant. -/
def Attended (s : Relay) : PipelineTask → Prop
  | .landChange c _ _ => s.shift.crew.floor.coming.contains c = true
  | .landUpdate u _ _ => s.station.shift.crew.floor.coming.contains u = true
  | .consumer _ => 0 < s.shift.crew.free
  | .worker _ e => Manned s.station e
  | .run _ _ => False
  | .shutDown _ _ => False

/-- **What a task does in its turn is a list of moves of a relay.** -/
theorem follows_turn {task : PipelineTask} (h : Agrees p s) (htask : p.tasks.lookup t = some task)
    (hattended : Attended s task) : ∃ s', Follows p (Pipeline.turn t p) s s' := by
  unfold Pipeline.turn
  rw [htask]
  cases task with
  | landChange c delay started =>
    cases started with
    | false => exact ⟨s, .of_shown h rfl⟩
    | true => exact ⟨_, follows_landChange h hattended⟩
  | landUpdate u delay started =>
    cases started with
    | false => exact ⟨s, .of_shown h rfl⟩
    | true => exact ⟨_, follows_landUpdate h hattended⟩
  | consumer run => exact follows_turnConsumer t run Pipeline.turnBound h hattended
  | worker run e =>
    obtain ⟨s', hturn, -⟩ := follows_turnWorker h htask hattended
    exact ⟨s', hturn⟩
  | run side phase => exact hattended.elim
  | shutDown side c => exact hattended.elim

end Relay

end BorderSync
