/-
# BorderSync.Proofs.Relay.Traffic -- no run leaves a counter behind

Both queues of a relay count failures. The watch counts one for every change that it adds, so that changes
that come in quick succession wait for one another; a worker counts one for every attempt that fails. Every
copy has an id of its own, so that a counter that was not cleared would never be used again, and would stay
for ever.

**Traffic** is a relay with the producers of its changes. A producer counts first and adds afterwards, after
the wait that it was told, and anything may come in between. What producers and timers do to the inbound
queue is nothing else than that; all the other moves are those of a relay.
-/
import Mathlib.Data.List.InsertIdx
import BorderSync.Proofs.Crew.Tally
import BorderSync.Proofs.Relay.Lasting

namespace BorderSync

open Event

/-! ## What is owed -/

/-- The failures of a change are forgotten after all its copies are scheduled. -/
def Planning.owes : Planning → Bool
  | .settled => false
  | _ => true

/-- The failures of an update are forgotten, or it is added again. -/
def Handling.owes : Handling → Bool
  | .settled => false
  | _ => true

/-- **Every step of a station keeps its counters accounted for.** -/
theorem Station.tallied_of_step {settings : Settings} {s t : Station} {m : Station.Move}
    {marks : List Station.Mark} (hs : s.Sound settings) (h : s.shift.Tallied Handling.owes [])
    (hstep : s.Step settings m t marks) : t.shift.Tallied Handling.owes [] := by
  cases hstep with
  | pass millis => exact h
  | drop u r hhost => exact h
  | accept u r delay hhost hopen => exact h.addAfter u delay
  | turnAway u r reports hhost hclosed => exact h
  | land u hcoming => exact h.land hcoming
  | take u later hwaiting hfree => exact h.ask hs.shift rfl
  | rest hwaiting hfree => exact h.ask hs.shift rfl
  | begin u hstage hgoing => exact h.turn rfl
  | answer u a q next hstage hgoing => exact h.turn rfl
  | finish u o v hstage hv hfinal => exact h.forget .settled
  | fail u o hstage hbelow reports => exact h.fail rfl
  | readd u wait hstage hopen => exact h.readd wait .settled
  | refuse u wait reports hstage hclosed => exact .of_closed hclosed h.positive
  | abandon u handling hstage hundone hstopped => exact h.forget .settled
  | done u hstage => exact h.done hstage rfl
  | close hphase => exact .of_closed rfl h.positive
  | hurry hphase hgoing hgrace => exact h
  | drained hphase hidle => exact ⟨h.due, h.positive⟩
  | join hphase hgone => exact ⟨h.due, h.positive⟩

namespace Relay

/-- What is done to the inbound queue from outside. -/
def Move.isUse : Move → Bool
  | .use _ => true
  | _ => false

/-- **Every other step of a relay keeps the counters of both queues accounted for.** -/
theorem tallied_of_step {settings : Settings} {s t : Relay} {m : Move} {marks : List Mark}
    {posting : List Change} (hs : s.Sound settings) (hm : m.isUse = false)
    (hin : s.shift.Tallied Planning.owes posting) (hout : s.station.shift.Tallied Handling.owes [])
    (hstep : Step settings s m t marks) :
    t.shift.Tallied Planning.owes posting ∧ t.station.shift.Tallied Handling.owes [] := by
  cases hstep with
  | use m hm' ha => exact absurd hm Bool.noConfusion
  | watch cache => exact ⟨hin, hout⟩
  | ask hfree => exact ⟨hin.ask hs.shift rfl, hout⟩
  | plan c cache updates tokens reports hstage hplan => exact ⟨hin.turn rfl, hout⟩
  | send c r w rest t marks hstage hstep =>
    exact ⟨hin.turn rfl, Station.tallied_of_step hs.station hout hstep⟩
  | forget c hstage => exact ⟨hin.forget .settled, hout⟩
  | done c hstage => exact ⟨hin.done hstage rfl, hout⟩
  | close hphase => exact ⟨.of_closed rfl hin.positive, hout⟩
  | drained hphase hidle => exact ⟨⟨hin.due, hin.positive⟩, hout⟩
  | join hphase hgone => exact ⟨⟨hin.due, hin.positive⟩, hout⟩
  | station m t marks hstep hclose => exact ⟨hin, Station.tallied_of_step hs.station hout hstep⟩

end Relay

/-! ## Traffic -/

/-- **Traffic**: a relay, and the changes that producers are about to add, each with its wait. -/
structure Traffic where
  relay : Relay
  posting : List (Change × Duration) := []

namespace Traffic

/-- **Move** of a producer, of a timer, or of anybody else. -/
inductive Move where
  /-- A producer counts a failure of a change and is told how long the change waits. -/
  | rate (c : Change)
  /-- One of the producers adds its change. -/
  | post (i : Nat)
  /-- A delayed change lands. -/
  | land (c : Change)
  | relay (m : Relay.Move)

variable {settings : Settings} {cache : Cluster.Cache} {s : Traffic} {m : Move} {ms : List Move}

/-- Both runs have just begun, and there is no producer yet. -/
def start (settings : Settings) (cache : Cluster.Cache) : Traffic :=
  { relay := .start settings cache }

/-- A move of the relay. -/
def moved (settings : Settings) (s : Traffic) (m : Relay.Move) : Traffic :=
  { s with relay := (Relay.act settings s.relay m).1 }

/-- The traffic after a move. -/
def next (settings : Settings) (s : Traffic) : Move → Traffic
  | .rate c =>
    { s.moved settings (.use (.recordFailure c)) with
      posting := s.posting ++ [(c, s.relay.queue.backoff.wait c)] }
  | .post i =>
    match s.posting[i]? with
    | some (c, wait) => { s.moved settings (.use (.addAfter c wait)) with posting := s.posting.eraseIdx i }
    | none => s
  | .land c => s.moved settings (.use (.land c))
  | .relay m => s.moved settings m

/-- Producers may come and go on at any moment; all else has to be due. -/
def allows (settings : Settings) (s : Traffic) : Move → Bool
  | .rate _ => true
  | .post i => i < s.posting.length
  | .land c => s.relay.shift.crew.floor.coming.contains c
  | .relay m => !m.isUse && Relay.allows settings s.relay m

/-- **The machine of traffic**: its legal runs are all interleavings of any number of producers with
timers, the watch, consumers, workers and both runs. -/
def machine (settings : Settings) : Machine Traffic Move where
  allows := allows settings
  next := next settings

/-- A change that nobody else comes between is counted and added in one. -/
theorem rate_post (settings : Settings) (s : Traffic) (c : Change) :
    (machine settings).run s [.rate c, .post s.posting.length] =
      s.moved settings (.use (.addRateLimited c)) := by
  simp only [machine, Machine.run_cons, Machine.run_nil, next, List.getElem?_concat_length]
  rw [List.eraseIdx_append_of_length_le (Nat.le_refl _)]
  simp [moved, Relay.act, Shift.use, WorkQueue.Crew.next, WorkQueue.Floor.next]

/-- A list holds what it holds without one of its places, or at that place. -/
theorem contains_eraseIdx {α : Type} [BEq α] {xs : List α} {i : Nat} {x y : α} (hi : xs[i]? = some x)
    (hy : xs.contains y = true) : (y == x) = true ∨ (xs.eraseIdx i).contains y = true := by
  obtain ⟨z, hz, hyz⟩ := List.contains_iff_exists_mem_beq.mp hy
  obtain ⟨j, hj⟩ := List.mem_iff_getElem?.mp hz
  by_cases hij : j = i
  · subst hij
    rw [hi] at hj
    obtain rfl := Option.some.inj hj
    exact .inl hyz
  · exact .inr (List.contains_iff_exists_mem_beq.mpr
      ⟨z, List.mem_eraseIdx_iff_getElem?.mpr ⟨j, hij, hj⟩, hyz⟩)

/-- **Tallied**: both sides are in order, and their counters are accounted for. -/
structure Tallied (settings : Settings) (s : Traffic) : Prop where
  sound : s.relay.Sound settings
  inbound : s.relay.shift.Tallied Planning.owes (s.posting.map Prod.fst)
  outbound : s.relay.station.shift.Tallied Handling.owes []

namespace Tallied

theorem start (settings : Settings) (cache : Cluster.Cache) : (Traffic.start settings cache).Tallied settings :=
  ⟨.start settings cache, .start _ _ _ _, .start _ _ _ _⟩

theorem post (h : s.Tallied settings) (i : Nat) : (s.next settings (.post i)).Tallied settings := by
  cases hi : s.posting[i]? with
  | none =>
    simp only [next, hi]
    exact h
  | some p =>
    obtain ⟨c, wait⟩ := p
    simp only [next, hi]
    refine ⟨h.sound.next (.use (.addAfter c wait)) rfl, ?_, h.outbound⟩
    rw [← List.eraseIdx_map]
    -- equal changes may be about to be added: only one of them goes
    refine h.inbound.post c wait fun d hd => contains_eraseIdx ?_ hd
    rw [List.getElem?_map, hi]
    rfl

/-- **Every allowed move keeps the counters accounted for.** -/
theorem next (h : s.Tallied settings) (m : Move) (ha : s.allows settings m = true) :
    (s.next settings m).Tallied settings := by
  cases m with
  | rate c =>
    refine ⟨h.sound.next (.use (.recordFailure c)) rfl, ?_, h.outbound⟩
    show Shift.Tallied _ ((s.posting ++ [_]).map Prod.fst) _
    rw [List.map_append]
    exact h.inbound.rate c
  | post i => exact h.post i
  | land c =>
    exact ⟨h.sound.next (.use (.land c)) (Bool.and_eq_true_iff.mpr ⟨rfl, ha⟩), h.inbound.land ha, h.outbound⟩
  | relay m =>
    obtain ⟨hm, ha⟩ := Bool.and_eq_true_iff.mp ha
    obtain ⟨hin, hout⟩ := Relay.tallied_of_step h.sound (by simpa using hm) h.inbound h.outbound
      (Relay.step_of_allows ha)
    exact ⟨h.sound.next m ha, hin, hout⟩

theorem run (h : s.Tallied settings) (hl : (machine settings).legal s ms = true) :
    ((machine settings).run s ms).Tallied settings :=
  (machine settings).run_keeps (P := Tallied settings) (fun _ m hs ha => hs.next m ha) h hl

end Tallied

/-! ## Nothing is left behind -/

/-- **Leaves nothing behind**: as long as a queue is open, what it counts failures of is still under way. -/
structure LeavesNothing (s : Traffic) : Prop where
  /-- A change with a counter is about to be added, or delayed, or waits, or is in a consumer's hand. -/
  inbound : s.relay.queue.closed = false → ∀ c, 0 < s.relay.queue.requeues c →
    (s.posting.map Prod.fst).contains c = true ∨ s.relay.shift.crew.floor.Underway c
  /-- When no producer is about to add anything and the inbound queue is idle, it has no counters. -/
  inbound_idle : s.relay.queue.closed = false → s.posting = [] → s.relay.queue.isIdle = true →
    s.relay.queue.backoff.failures.entries = []
  /-- An update with a counter is delayed, or waits, or is in a worker's hand. -/
  outbound : s.relay.station.queue.closed = false → ∀ u, 0 < s.relay.station.queue.requeues u →
    s.relay.station.shift.crew.floor.Underway u
  /-- When the outbound queue is idle it has no counters. -/
  outbound_idle : s.relay.station.queue.closed = false → s.relay.station.queue.isIdle = true →
    s.relay.station.queue.backoff.failures.entries = []

/-- **No run leaves a counter behind.** However producers, timers, the watch, consumers and workers
interleave, and whatever border servers answer, as long as a queue is open it counts failures only of what
is under way, and when it is idle it counts none. -/
theorem run_leavesNothing (settings : Settings) (cache : Cluster.Cache) (ms : List Move)
    (hl : (machine settings).legal (start settings cache) ms = true) :
    ((machine settings).run (start settings cache) ms).LeavesNothing := by
  have h := (Tallied.start settings cache).run hl
  constructor
  case inbound =>
    intro hopen c hcount
    exact (h.inbound.due hopen c hcount).underway h.sound.shift
  case inbound_idle =>
    intro hopen hposting hidle
    have hinbound := h.inbound
    rw [hposting] at hinbound
    exact hinbound.failures_of_idle h.sound.shift hopen hidle
  case outbound =>
    intro hopen u hcount
    have hunderway := (h.outbound.due hopen u hcount).underway h.sound.station.shift
    exact hunderway.resolve_left (by simp)
  case outbound_idle =>
    intro hopen hidle
    exact h.outbound.failures_of_idle h.sound.station.shift hopen hidle

/-! ### Counters that come and go -/

/-- Every update is attempted twice. -/
def patient : Settings :=
  { hosts := ["bar"], outbound := { retryCount := 2 } }

/-- A service whose updates fail: the name of the border server is no place to send requests to. -/
def tapped : Change :=
  { kind := .created
    service :=
      { name := some "web", version := some "1", annotations := [("nginxinc.io/nlk-tea", "http")]
        ports := [⟨some "nlk-tea", some 30080⟩] }
    previous := none
    nodes := ["10.0.0.1"] }

/-- The copy of its only update. -/
def drawn : Update :=
  Delivery.copyFor (fun _ _ => "") (0, "bar")
    (0, { kind := .created, upstream := "tea", clientType := "http", servers := ["10.0.0.1:30080"] })

/-- The change lands, and a consumer deals with it. -/
def consumed : List Move :=
  [.land tapped, .relay .ask, .relay (.plan tapped fun _ _ => ""), .relay (.send tapped 0),
    .relay (.forget tapped), .relay (.done tapped)]

/-- A worker takes the copy and fails. -/
def failed : List Move :=
  [.relay (.station .ask), .relay (.station (.begin drawn)), .relay (.station (.settle drawn))]

/-- Two producers add the same change. Its copy is scheduled twice and lands for the second time while it is
in hand; it is given up, and comes back for another two attempts. -/
def twice : List Move :=
  [.rate tapped, .rate tapped, .post 1, .post 0] ++ consumed ++ consumed ++
    [.relay (.station (.land drawn))] ++ failed ++
    [.relay (.station (.land drawn)), .relay (.station (.readd drawn)), .relay (.station (.done drawn))] ++
    failed ++ [.relay (.station (.done drawn)), .relay (.station (.land drawn))] ++ failed ++
    [.relay (.station (.readd drawn)), .relay (.station (.done drawn)), .relay (.station (.land drawn))] ++
    failed ++ [.relay (.station (.done drawn))]

theorem run_leavesNothing_twice :
    (machine patient).legal (start patient .empty) twice = true ∧
      ((machine patient).run (start patient .empty) twice).relay.queue.isIdle = true ∧
      ((machine patient).run (start patient .empty) twice).relay.station.queue.isIdle = true ∧
      ((machine patient).run (start patient .empty) twice).LeavesNothing :=
  have hl : (machine patient).legal (start patient .empty) twice = true := by decide +kernel
  ⟨hl, by decide +kernel, by decide +kernel, run_leavesNothing patient .empty twice hl⟩

end Traffic

end BorderSync
