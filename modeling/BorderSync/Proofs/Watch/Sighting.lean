/-
# BorderSync.Proofs.Watch.Sighting -- a service is seen while others use the cache and the queue

When a service is seen the watcher lists the nodes. If that fails it looks up which addresses were stored last.
Then it stores the service, determines how long the change waits and puts it into the queue. All of this takes
time: those who plan may take the entry out of the cache before the watcher looks, or between its look and its
store, and anybody may use the queue in between. This module tells one call step by step among the others, and
marks whatever is done to the cache and to the queue. Among nobody else the steps are the outcome of the sight.
-/
import BorderSync.Cluster.Node
import BorderSync.Proofs.Plan.Withdrawal
import BorderSync.Proofs.Queue.Load
import BorderSync.Watch.Basic
import Mathlib.Data.List.Basic

namespace BorderSync

open Cluster Event

/-! ## The machine -/

/-- **Stage** of a call: what the watcher has found out, and so what comes next. -/
inductive Sighting.Stage where
  | called
  /-- The service has a key, and the nodes are listed. -/
  | listing (k : Key)
  | failed (k : Key) (e : Error)
  /-- The addresses are decided, and nothing is stored. -/
  | chosen (k : Key) (nodes : List String)
  /-- The service is stored and the change is made; how long it waits is not determined. -/
  | made (c : Change)
  | rated (c : Change) (wait : Duration)
  | finished

/-- **Sighting**: the cache and the queue, and how far the call has come. -/
structure Sighting where
  cache : Cache
  inbound : WorkQueue.Floor Change
  stage : Sighting.Stage := .called
  reports : List Report := []

namespace Sighting

/-- **Call**: the service that is seen, and what the cluster answers when the nodes are listed. -/
structure Call where
  body : Service
  answer : Except Error (List Node)

/-- The key of the service, if it has a name. -/
def Call.key? (call : Call) : Option Key :=
  Key.ofService? call.body

/-- The worker addresses, or why they could not be listed. -/
def Call.listing (call : Call) : Watch.Listing :=
  call.answer.map Node.workerAddresses

/-- **Move**: the watcher takes its next step, or somebody else does something. The watcher finishes with one
service before the next, so that nobody else stores anything. -/
inductive Move where
  | proceed
  /-- Somebody plans for a change. -/
  | plan (c : Change)
  /-- Somebody uses the queue. -/
  | use (m : WorkQueue.Move Change)

/-- **Mark** of a move. -/
inductive Mark where
  /-- The watcher looks up the addresses that were stored last. -/
  | looked
  /-- The watcher stores a service. -/
  | put (k : Key) (service : Service) (nodes : List String)
  /-- The watcher uses the queue. -/
  | queued (m : WorkQueue.Move Change)
  | planned (c : Change)
  | used (m : WorkQueue.Move Change)

/-- The call is over. -/
def Stage.isFinished : Stage → Bool
  | .finished => true
  | _ => false

/-- A call begins. -/
def start (cache : Cache) (inbound : WorkQueue.Floor Change) : Sighting :=
  { cache := cache, inbound := inbound }

variable (call : Call)

/-- **The next step of the watcher.** The cache and the queue are used as they are at that moment. -/
def proceed (s : Sighting) : Sighting :=
  match s.stage with
  | .called =>
    match call.key? with
    | none =>
      { s with
        stage := .finished
        reports := s.reports ++ [.warn "Watcher: ignoring Service without a name"] }
    | some k => { s with stage := .listing k }
  | .listing k =>
    match call.listing with
    | .ok nodes => { s with stage := .chosen k nodes }
    | .error e => { s with stage := .failed k e }
  | .failed k e =>
    { s with
      stage := match Watch.addresses? s.cache k (.error e) with
        | none => .finished
        | some nodes => .chosen k nodes
      reports := s.reports ++ Watch.listingReports s.cache k (.error e) }
  | .chosen k nodes =>
    { s with
      cache := (Watch.store s.cache k call.body nodes).1
      stage := .made (Watch.store s.cache k call.body nodes).2 }
  | .made c =>
    { s with
      inbound := s.inbound.next (.recordFailure c)
      stage := .rated c (s.inbound.queue.backoff.wait c) }
  | .rated c wait => { s with inbound := s.inbound.next (.addAfter c wait), stage := .finished }
  | .finished => s

/-- The state after a move. -/
def next (s : Sighting) : Move → Sighting
  | .proceed => s.proceed call
  | .plan c => { s with cache := (Plan.Use.plan c).after s.cache }
  | .use m => { s with inbound := s.inbound.next m }

/-- The watcher goes on until the call is over. The others may do anything at any moment. -/
def allows (s : Sighting) : Move → Bool
  | .proceed => !s.stage.isFinished
  | .plan _ => true
  | .use m => s.inbound.allows m

/-- **The machine of a call**: its legal runs are all interleavings with what others do. -/
def machine : Machine Sighting Move :=
  ⟨allows, next call⟩

/-- The marks of a move. -/
def marks (s : Sighting) : Move → List Mark
  | .proceed =>
    match s.stage with
    | .failed _ _ => [.looked]
    | .chosen k nodes => [.put k call.body nodes]
    | .made c => [.queued (.recordFailure c)]
    | .rated c wait => [.queued (.addAfter c wait)]
    | _ => []
  | .plan c => [.planned c]
  | .use m => [.used m]

/-- The marks of a run. -/
def history (s : Sighting) (ms : List Move) : List Mark :=
  (machine call).log (marks call) s ms

/-! ## What the marks tell -/

/-- The watcher left the mark. -/
def Mark.isOwn : Mark → Bool
  | .planned _ => false
  | .used _ => false
  | _ => true

/-- What is done to the cache. -/
def Mark.use? : Mark → Option Plan.Use
  | .put k service nodes => some (.put k service nodes)
  | .planned c => some (.plan c)
  | _ => none

/-- What is done to the queue. -/
def Mark.move? : Mark → Option (WorkQueue.Move Change)
  | .queued m => some m
  | .used m => some m
  | _ => none

/-- All that is done to the cache. -/
def usesIn (l : List Mark) : List Plan.Use :=
  l.filterMap Mark.use?

/-- All that is done to the queue. -/
def movesIn (l : List Mark) : List (WorkQueue.Move Change) :=
  l.filterMap Mark.move?

/-- What the watcher does. -/
def own (l : List Mark) : List Mark :=
  l.filter Mark.isOwn

/-- What the others do. -/
def others (l : List Mark) : List Mark :=
  l.filter fun m => !m.isOwn

/-- The queue after all that is done to it. -/
def queueAfter (inbound : WorkQueue.Floor Change) (l : List Mark) : WorkQueue.Floor Change :=
  (WorkQueue.Floor.machine Change).run inbound (movesIn l)

/-- A mark was left, and something held of the marks before it. -/
def Left (m : Mark) (l : List Mark) (p : List Mark → Prop) : Prop :=
  ∃ before after, l = before ++ m :: after ∧ p before

variable {call} {cache : Cache} {inbound : WorkQueue.Floor Change} {s : Sighting} {l : List Mark}

theorem own_append (l l' : List Mark) : own (l ++ l') = own l ++ own l' :=
  List.filter_append l l'

theorem usesIn_append (l l' : List Mark) : usesIn (l ++ l') = usesIn l ++ usesIn l' :=
  List.filterMap_append

theorem Left.append {m : Mark} {p : List Mark → Prop} (h : Left m l p) (l' : List Mark) : Left m (l ++ l') p := by
  obtain ⟨before, after, rfl, hp⟩ := h
  exact ⟨before, after ++ l', by rw [List.append_assoc, List.cons_append], hp⟩

theorem Left.last {p : List Mark → Prop} (m : Mark) (hp : p l) : Left m (l ++ [m]) p :=
  ⟨l, [], rfl, hp⟩

theorem Left.mono {m : Mark} {p q : List Mark → Prop} (h : Left m l p) (hpq : ∀ before, p before → q before) :
    Left m l q := by
  obtain ⟨before, after, hl, hp⟩ := h
  exact ⟨before, after, hl, hpq before hp⟩

/-- Only the watcher puts. -/
theorem own_of_puts {use : Plan.Use} {k : Key} (hmem : use ∈ usesIn l) (hputs : use.Puts k) :
    use ∈ usesIn (own l) := by
  obtain ⟨m, hm, huse⟩ := List.mem_filterMap.mp hmem
  refine List.mem_filterMap.mpr ⟨m, List.mem_filter.mpr ⟨hm, ?_⟩, huse⟩
  cases m with
  | planned c =>
    obtain rfl : Plan.Use.plan c = use := Option.some.inj huse
    exact hputs.elim
  | used m => exact absurd huse (by simp [Mark.use?])
  | _ => rfl

/-- What the watcher does without an effect can be left out. -/
theorem filterMap_others {β : Type} (f : Mark → Option β) (h : ∀ m ∈ own l, f m = none) :
    (others l).filterMap f = l.filterMap f := by
  rw [others, List.filterMap_filter]
  apply List.filterMap_congr
  intro m hm
  cases hown : m.isOwn with
  | false => rfl
  | true => exact (h m (List.mem_filter.mpr ⟨hm, hown⟩)).symm

/-! ## Nothing happens beside the marks -/

/-- **Told**: the cache and the queue are what the marks make of them. -/
structure Told (cache : Cache) (inbound : WorkQueue.Floor Change) (s : Sighting) (l : List Mark) : Prop where
  cache_eq : s.cache = Plan.cacheAfter cache (usesIn l)
  inbound_eq : s.inbound = queueAfter inbound l

theorem Told.next (h : Told cache inbound s l) (m : Move) :
    Told cache inbound (next call s m) (l ++ marks call s m) := by
  have hcache : (Sighting.next call s m).cache = Plan.cacheAfter s.cache (usesIn (marks call s m)) := by
    cases m with
    | proceed =>
      unfold Sighting.next proceed marks
      cases s.stage with
      | called => cases call.key? <;> rfl
      | listing k => cases call.listing <;> rfl
      | _ => rfl
    | _ => rfl
  have hinbound : (Sighting.next call s m).inbound = queueAfter s.inbound (marks call s m) := by
    cases m with
    | proceed =>
      unfold Sighting.next proceed marks
      cases s.stage with
      | called => cases call.key? <;> rfl
      | listing k => cases call.listing <;> rfl
      | _ => rfl
    | _ => rfl
  refine ⟨?_, ?_⟩
  · rw [hcache, h.cache_eq, usesIn_append, Plan.cacheAfter_append]
  · rw [hinbound, h.inbound_eq, queueAfter, queueAfter, queueAfter, movesIn, movesIn, movesIn,
      List.filterMap_append, Machine.run_append]

/-- Puts under other keys play no part for a key. -/
theorem get?_others {j : Key} {cache' : Cache}
    (hput : ∀ k service nodes, Mark.put k service nodes ∈ own l → k ≠ j) (h : cache'.get? j = cache.get? j) :
    (Plan.cacheAfter cache' (usesIn l)).get? j = (Plan.cacheAfter cache (usesIn (others l))).get? j := by
  induction l generalizing cache cache' with
  | nil => exact h
  | cons m l ih =>
    cases m with
    | looked =>
      apply ih _ h
      intro k service nodes hmem
      exact hput k service nodes (List.mem_cons_of_mem _ hmem)
    | put k service nodes =>
      have hk : ¬ j = k := fun hjk => hput k service nodes List.mem_cons_self hjk.symm
      apply ih
      · intro i service' nodes' hmem
        exact hput i service' nodes' (List.mem_cons_of_mem _ hmem)
      · exact ((cache'.get?_put k j service nodes).trans (if_neg hk)).trans h
    | queued m =>
      apply ih _ h
      intro k service nodes hmem
      exact hput k service nodes (List.mem_cons_of_mem _ hmem)
    | planned c => exact ih hput (Plan.Use.get?_congr (.plan c) h)
    | used m => exact ih hput h

/-! ## Without others -/

/-- What a call has come to among nobody else: the outcome of the sight, whose change is added with the wait that
its failures earn. -/
def ofSight (call : Call) (cache : Cache) (inbound : WorkQueue.Floor Change) : Sighting :=
  let outcome := Watch.apply cache call.body call.listing
  { cache := outcome.cache
    inbound := match outcome.change with
      | none => inbound
      | some c => inbound.next (.addRateLimited c)
    stage := .finished
    reports := outcome.reports }

/-- Six steps are enough for a call. -/
theorem run_six (call : Call) (cache : Cache) (inbound : WorkQueue.Floor Change) :
    (machine call).run (start cache inbound) (List.replicate 6 .proceed) = ofSight call cache inbound := by
  show proceed call (proceed call (proceed call (proceed call (proceed call (proceed call
    (start cache inbound)))))) = _
  unfold ofSight Watch.apply
  cases hkey : call.key? with
  | none =>
    rw [show Key.ofService? call.body = none from hkey]
    simp only [proceed, start, hkey, List.nil_append]
  | some k =>
    rw [show Key.ofService? call.body = some k from hkey]
    cases hlisting : call.listing with
    | ok nodes =>
      simp only [proceed, start, hkey, hlisting, Watch.addresses?, Watch.listingReports]
      rfl
    | error e =>
      cases hfound : cache.get? k with
      | none => simp only [proceed, start, hkey, hlisting, Watch.addresses?, hfound, Option.map_none, List.nil_append]
      | some entry =>
        simp only [proceed, start, hkey, hlisting, Watch.addresses?, hfound, Option.map_some, List.nil_append]
        rfl

/-- After its end a call does nothing. -/
theorem run_finished {s : Sighting} (h : s.stage = .finished) (n : Nat) :
    (machine call).run s (List.replicate n .proceed) = s := by
  induction n with
  | zero => rfl
  | succ n ih =>
    have hproceed : s.proceed call = s := by
      unfold proceed
      rw [h]
    rw [List.replicate_succ, Machine.run_cons]
    exact (congrArg (fun t => (machine call).run t _) hproceed).trans ih

/-- **Among nobody else, the steps of a call are the outcome of the sight.** -/
theorem run_alone {cache : Cache} {inbound : WorkQueue.Floor Change} {ms : List Move}
    (halone : ∀ m ∈ ms, m = .proceed)
    (hfinished : ((machine call).run (start cache inbound) ms).stage = .finished) :
    (machine call).run (start cache inbound) ms = ofSight call cache inbound := by
  rw [List.eq_replicate_of_mem halone] at hfinished ⊢
  generalize ms.length = n at hfinished ⊢
  calc (machine call).run (start cache inbound) (List.replicate n .proceed)
      = (machine call).run (start cache inbound) (List.replicate (n + 6) .proceed) := by
        rw [← List.replicate_append_replicate, Machine.run_append, run_finished hfinished]
    _ = (machine call).run (ofSight call cache inbound) (List.replicate n .proceed) := by
        rw [Nat.add_comm, ← List.replicate_append_replicate, Machine.run_append, run_six]
    _ = ofSight call cache inbound := run_finished rfl n

end Sighting

end BorderSync
