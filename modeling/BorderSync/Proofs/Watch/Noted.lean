/-
# BorderSync.Proofs.Watch.Noted -- what the watcher stores and what it hands on agree

A service that is seen is left alone or noted. It is left alone if it has no name, or if the nodes cannot be listed
and nothing is stored of it. Otherwise it is stored once, and one change is handed on, with the same body and the
same addresses. A list that fails changes no addresses, even if the entry that they come from is taken out before
the service is stored; then the change tells of a new service.
-/
import BorderSync.Proofs.Watch.Sighting

namespace BorderSync

open Cluster Event

namespace Sighting

variable {call : Call} {cache : Cache} {inbound : WorkQueue.Floor Change} {s : Sighting} {l l' : List Mark}

/-! ## How far a call has come -/

/-- What a call has to look up: nothing, if the nodes are listed. -/
def Call.looks (call : Call) : List Mark :=
  match call.answer with
  | .ok _ => []
  | .error _ => [.looked]

/-- **Ignored**: nothing is done, and why. -/
inductive Ignored (call : Call) (cache : Cache) (l : List Mark) : Prop where
  /-- The service has no name. -/
  | nameless (hkey : call.key? = none) (hown : own l = [])
  /-- The list failed, and nothing was stored under the key when the watcher looked. -/
  | unknown (k : Key) (e : Error) (hkey : call.key? = some k) (hanswer : call.answer = .error e)
    (hown : own l = [.looked])
    (hlooked : Left .looked l fun before => (Plan.cacheAfter cache (usesIn before)).get? k = none)

/-- **Chosen**: the addresses that a call goes by. -/
structure Chosen (call : Call) (cache : Cache) (l : List Mark) (k : Key) (nodes : List String) : Prop where
  key : call.key? = some k
  listed : ∀ ns, call.answer = .ok ns → nodes = Node.workerAddresses ns
  /-- If the list failed, they are those that were stored when the call began, and still when the watcher looked. -/
  last : ∀ e, call.answer = .error e → ∃ entry, cache.get? k = some entry ∧ nodes = entry.nodes ∧
    Left .looked l fun before => (Plan.cacheAfter cache (usesIn before)).get? k = some entry

/-- **Made**: the service is stored, and this is the change that came of it. -/
structure Made (call : Call) (cache : Cache) (l : List Mark) (k : Key) (nodes : List String) (c : Change) :
    Prop extends Chosen call cache l k nodes where
  stored : Left (.put k call.body nodes) l fun before =>
    c = (Watch.store (Plan.cacheAfter cache (usesIn before)) k call.body nodes).2

/-- **Rated**: it is determined how long the change waits. -/
structure Rated (call : Call) (cache : Cache) (inbound : WorkQueue.Floor Change) (l : List Mark) (k : Key)
    (nodes : List String) (c : Change) (wait : Duration) : Prop extends Made call cache l k nodes c where
  waits : Left (.queued (.recordFailure c)) l fun before => wait = (queueAfter inbound before).queue.backoff.wait c

/-- **Standing**: what the watcher has found out and done so far, for each stage. -/
def Standing (call : Call) (cache : Cache) (inbound : WorkQueue.Floor Change) (l : List Mark) : Stage → Prop
  | .called => own l = []
  | .listing k => call.key? = some k ∧ own l = []
  | .failed k e => call.key? = some k ∧ call.answer = .error e ∧ own l = []
  | .chosen k nodes => Chosen call cache l k nodes ∧ own l = call.looks
  | .made c => ∃ k nodes, Made call cache l k nodes c ∧ own l = call.looks ++ [.put k call.body nodes]
  | .rated c wait => ∃ k nodes, Rated call cache inbound l k nodes c wait ∧
      own l = call.looks ++ [.put k call.body nodes, .queued (.recordFailure c)]
  | .finished => Ignored call cache l ∨ ∃ k nodes c wait, Rated call cache inbound l k nodes c wait ∧
      own l = call.looks ++ [.put k call.body nodes, .queued (.recordFailure c), .queued (.addAfter c wait)]

section Append

variable {k : Key} {nodes : List String} {c : Change} {wait : Duration}

theorem Chosen.append (h : Chosen call cache l k nodes) (l' : List Mark) : Chosen call cache (l ++ l') k nodes where
  key := h.key
  listed := h.listed
  last e hanswer := by
    obtain ⟨entry, hentry, hnodes, hlooked⟩ := h.last e hanswer
    exact ⟨entry, hentry, hnodes, hlooked.append l'⟩

theorem Made.append (h : Made call cache l k nodes c) (l' : List Mark) : Made call cache (l ++ l') k nodes c :=
  ⟨h.toChosen.append l', h.stored.append l'⟩

theorem Rated.append (h : Rated call cache inbound l k nodes c wait) (l' : List Mark) :
    Rated call cache inbound (l ++ l') k nodes c wait :=
  ⟨h.toMade.append l', h.waits.append l'⟩

theorem Ignored.append (h : Ignored call cache l) (hown : own (l ++ l') = own l) : Ignored call cache (l ++ l') := by
  cases h with
  | nameless hkey hnothing => exact .nameless hkey (hown.trans hnothing)
  | unknown k e hkey hanswer hnothing hlooked =>
    exact .unknown k e hkey hanswer (hown.trans hnothing) (hlooked.append l')

end Append

/-- What the others do changes nothing about how far the call has come. -/
theorem Standing.aside {stage : Stage} (h : Standing call cache inbound l stage) {m : Mark} (hm : m.isOwn = false) :
    Standing call cache inbound (l ++ [m]) stage := by
  have hown : own (l ++ [m]) = own l := by
    rw [own_append, own, own, List.filter_cons_of_neg (by simp [hm]), List.filter_nil, List.append_nil]
  cases stage with
  | called => exact hown.trans h
  | listing k => exact ⟨h.1, hown.trans h.2⟩
  | failed k e => exact ⟨h.1, h.2.1, hown.trans h.2.2⟩
  | chosen k nodes => exact ⟨h.1.append [m], hown.trans h.2⟩
  | made c =>
    obtain ⟨k, nodes, hmade, heq⟩ := h
    exact ⟨k, nodes, hmade.append [m], hown.trans heq⟩
  | rated c wait =>
    obtain ⟨k, nodes, hrated, heq⟩ := h
    exact ⟨k, nodes, hrated.append [m], hown.trans heq⟩
  | finished =>
    rcases h with hignored | ⟨k, nodes, c, wait, hrated, heq⟩
    · exact .inl (hignored.append hown)
    · exact .inr ⟨k, nodes, c, wait, hrated.append [m], hown.trans heq⟩

/-- What the watcher finds before it has done anything was there in the beginning. -/
theorem found_before (h : Told cache inbound s l) (hown : own l = []) {k : Key} {e : Entry}
    (he : s.cache.get? k = some e) : cache.get? k = some e := by
  rw [h.cache_eq] at he
  apply Plan.stored_before _ he
  intro use hmem hputs
  have hput := own_of_puts hmem hputs
  rw [hown] at hput
  exact List.not_mem_nil hput

/-- If the nodes are listed, their addresses are chosen. -/
theorem Chosen.of_listed {k : Key} {ns : List Node} (hkey : call.key? = some k) (hanswer : call.answer = .ok ns) :
    Chosen call cache l k (Node.workerAddresses ns) where
  key := hkey
  listed ns' hns := by
    rw [hanswer] at hns
    rw [Except.ok.inj hns]
  last e he := by
    rw [hanswer] at he
    exact absurd he (by simp)

/-- **What the watcher looks up decides.** It finds nothing and the call is over, or the addresses are chosen. -/
theorem Standing.looked {k : Key} {e : Error} (hkey : call.key? = some k) (hanswer : call.answer = .error e)
    (hown : own l = []) (htold : Told cache inbound s l) :
    Standing call cache inbound (l ++ [.looked])
      (match Watch.addresses? s.cache k (.error e) with
        | none => .finished
        | some nodes => .chosen k nodes) := by
  have hlooks : own (l ++ [.looked]) = [.looked] := by
    rw [own_append, hown]
    rfl
  unfold Watch.addresses?
  cases hfound : s.cache.get? k with
  | none => exact .inl (.unknown k e hkey hanswer hlooks (Left.last .looked (htold.cache_eq ▸ hfound)))
  | some entry =>
    refine ⟨⟨hkey, ?_, ?_⟩, ?_⟩
    · intro ns hns
      rw [hanswer] at hns
      exact absurd hns (by simp)
    · intro e' _
      exact ⟨entry, found_before htold hown hfound, rfl, Left.last .looked (htold.cache_eq ▸ hfound)⟩
    · rw [hlooks, Call.looks, hanswer]

/-- **A step of the watcher keeps the standing.** -/
theorem Standing.proceed (h : Standing call cache inbound l s.stage) (htold : Told cache inbound s l)
    (ha : s.stage.isFinished = false) :
    Standing call cache inbound (l ++ marks call s .proceed) (s.proceed call).stage := by
  cases hstage : s.stage with
  | called =>
    rw [hstage] at h
    simp only [marks, Sighting.proceed, hstage, List.append_nil]
    cases hkey : call.key? with
    | none => exact .inl (.nameless hkey h)
    | some k => exact ⟨hkey, h⟩
  | listing k =>
    rw [hstage] at h
    obtain ⟨hkey, hown⟩ := h
    simp only [marks, Sighting.proceed, hstage, List.append_nil, Call.listing]
    cases hanswer : call.answer with
    | ok ns => exact ⟨.of_listed hkey hanswer, by rw [hown, Call.looks, hanswer]⟩
    | error e => exact ⟨hkey, hanswer, hown⟩
  | failed k e =>
    rw [hstage] at h
    obtain ⟨hkey, hanswer, hown⟩ := h
    simp only [marks, Sighting.proceed, hstage]
    exact .looked hkey hanswer hown htold
  | chosen k nodes =>
    rw [hstage] at h
    obtain ⟨hchosen, hown⟩ := h
    simp only [marks, Sighting.proceed, hstage]
    refine ⟨k, nodes, ⟨hchosen.append _, Left.last _ ?_⟩, ?_⟩
    · rw [htold.cache_eq]
    · rw [own_append, hown]
      rfl
  | made c =>
    rw [hstage] at h
    obtain ⟨k, nodes, hmade, hown⟩ := h
    simp only [marks, Sighting.proceed, hstage]
    refine ⟨k, nodes, ⟨hmade.append _, Left.last _ ?_⟩, ?_⟩
    · rw [htold.inbound_eq]
    · rw [own_append, hown, List.append_assoc]
      rfl
  | rated c wait =>
    rw [hstage] at h
    obtain ⟨k, nodes, hrated, hown⟩ := h
    simp only [marks, Sighting.proceed, hstage]
    refine .inr ⟨k, nodes, c, wait, hrated.append _, ?_⟩
    rw [own_append, hown, List.append_assoc]
    rfl
  | finished =>
    rw [hstage] at ha
    exact absurd ha (by decide)

/-- **An allowed move keeps the standing.** -/
theorem Standing.next (h : Standing call cache inbound l s.stage) (htold : Told cache inbound s l) {m : Move}
    (ha : s.allows m = true) :
    Standing call cache inbound (l ++ marks call s m) (Sighting.next call s m).stage := by
  cases m with
  | proceed => exact h.proceed htold (by simpa [allows] using ha)
  | plan c => exact h.aside rfl
  | use m => exact h.aside rfl

/-! ## Steps that are left -/

/-- The most steps that a call still takes. -/
def Stage.toGo : Stage → Nat
  | .called => 6
  | .listing _ => 5
  | .failed _ _ => 4
  | .chosen _ _ => 3
  | .made _ => 2
  | .rated _ _ => 1
  | .finished => 0

/-- The watcher makes the move. -/
def Move.isStep : Move → Bool
  | .proceed => true
  | _ => false

/-- Each step brings the end nearer. -/
theorem toGo_proceed (call : Call) (ha : s.stage.isFinished = false) :
    (s.proceed call).stage.toGo < s.stage.toGo := by
  unfold Sighting.proceed
  cases hstage : s.stage with
  | called => cases call.key? <;> simp [Stage.toGo]
  | listing k => cases call.listing <;> simp [Stage.toGo]
  | failed k e =>
    simp only
    split <;> simp [Stage.toGo]
  | finished =>
    rw [hstage] at ha
    exact absurd ha (by decide)
  | _ => simp [Stage.toGo]

/-- A call is over at one stage only. -/
theorem finished_of {stage : Stage} (h : stage.isFinished = true) : stage = .finished := by
  cases stage with
  | finished => rfl
  | _ => exact absurd h Bool.false_ne_true

/-- A call takes no more steps than there are to go. -/
theorem steps_le {ms : List Move} (hl : (machine call).legal s ms = true) :
    ms.countP Move.isStep + ((machine call).run s ms).stage.toGo ≤ s.stage.toGo := by
  induction ms generalizing s with
  | nil => exact Nat.le_of_eq (Nat.zero_add _)
  | cons m ms ih =>
    obtain ⟨ha, hl⟩ := ((machine call).legal_cons s m ms).mp hl
    have hrest := ih hl
    rw [Machine.run_cons, List.countP_cons]
    cases m with
    | proceed =>
      have hstep : ((machine call).next s .proceed).stage.toGo < s.stage.toGo :=
        toGo_proceed call (by simpa [machine, allows] using ha)
      rw [show Move.isStep .proceed = true from rfl, if_pos rfl]
      omega
    | plan c => exact hrest
    | use m => exact hrest

/-! ## Whole calls -/

/-- **Tells**: a change tells what was stored before. -/
structure Tells (found : Option Entry) (c : Change) : Prop where
  updated_iff : c.kind = .updated ↔ found.isSome = true
  created_iff : c.kind = .created ↔ found = none
  /-- The replaced body, and none if nothing was replaced. -/
  previous : c.previous = found.map Entry.service

/-- The change that comes of storing a service tells what was stored before, and what is stored now. -/
theorem tells_store (cache : Cache) (k : Key) (body : Service) (nodes : List String) :
    Tells (cache.get? k) (Watch.store cache k body nodes).2 ∧
      (Watch.store cache k body nodes).2.service = body ∧ (Watch.store cache k body nodes).2.nodes = nodes := by
  unfold Watch.store
  cases cache.get? k with
  | none => exact ⟨⟨by simp [Change.of], by simp [Change.of], rfl⟩, rfl, rfl⟩
  | some e => exact ⟨⟨by simp [Change.of], by simp [Change.of], rfl⟩, rfl, rfl⟩

/-- **Quiet**: a call that does nothing. -/
structure Quiet (call : Call) (cache : Cache) (inbound : WorkQueue.Floor Change) (s : Sighting) (l : List Mark) :
    Prop where
  reason : Ignored call cache l
  /-- The cache and the queue are as the others leave them. -/
  cache_eq : s.cache = Plan.cacheAfter cache (usesIn (others l))
  inbound_eq : s.inbound = queueAfter inbound (others l)

/-- **Noted**: a call that stores the service under its key, with these addresses, and hands on a change. -/
structure Noted (call : Call) (cache : Cache) (inbound : WorkQueue.Floor Change) (s : Sighting) (l : List Mark)
    (k : Key) (nodes : List String) (c : Change) (wait : Duration) : Prop extends Chosen call cache l k nodes where
  /-- There is one put, and one change is put into the queue; nothing else is done. -/
  own_eq : own l = call.looks ++ [.put k call.body nodes, .queued (.recordFailure c), .queued (.addAfter c wait)]
  service : c.service = call.body
  nodes_eq : c.nodes = nodes
  /-- The change tells what the put replaced. -/
  tells : Left (.put k call.body nodes) l fun before => Tells ((Plan.cacheAfter cache (usesIn before)).get? k) c
  /-- The cache does not hold anything else of the service. -/
  agrees : ∀ e, s.cache.get? k = some e → e.service = c.service ∧ e.nodes = c.nodes
  waits : Left (.queued (.recordFailure c)) l fun before => wait = (queueAfter inbound before).queue.backoff.wait c
  /-- A queue that is open takes the change. -/
  taken : Left (.queued (.addAfter c wait)) l fun before => (queueAfter inbound before).queue.closed = false →
    WorkQueue.Floor.TakenWith c wait (queueAfter inbound before) ((queueAfter inbound before).addAfter c wait)
  /-- Whoever plans for the change asks for servers at these addresses. -/
  planned : ∀ cache' p, Plan.ofChange cache' c = .ok p → p.updates = Plan.updatesOf c.kind call.body nodes
  /-- A list that failed changes no servers: with the ports of the stored body, the same servers are asked for as
  by any change that told of the stored body. -/
  steady : ∀ e entry c' cache₁ cache₂ p p', call.answer = .error e → cache.get? k = some entry →
    c'.kind ≠ .deleted → c'.service = entry.service → c'.nodes = entry.nodes →
    call.body.ports = entry.service.ports → Plan.ofChange cache₁ c = .ok p → Plan.ofChange cache₂ c' = .ok p' →
      p.updates.map (fun u => (u.upstream, u.servers)) = p'.updates.map fun u => (u.upstream, u.servers)

/-- **Conduct** of a call. -/
structure Conduct (call : Call) (cache : Cache) (inbound : WorkQueue.Floor Change) (ms : List Move) (s : Sighting)
    (l : List Mark) : Prop where
  /-- The cache and the queue are what the marks make of them. -/
  told : Told cache inbound s l
  /-- Entries of other keys are as the others alone leave them. -/
  apart : ∀ j, call.key? ≠ some j → s.cache.get? j = (Plan.cacheAfter cache (usesIn (others l))).get? j
  /-- The call takes no more than six steps, and is never held up before the last. -/
  steps : ms.countP Move.isStep ≤ 6
  proceeds : s.stage.isFinished = false → s.allows .proceed = true
  outcome : s.stage.isFinished = true → Quiet call cache inbound s l ∨
    ∃ k nodes c wait, Noted call cache inbound s l k nodes c wait
  /-- Among nobody else, the outcome is that of the sight. -/
  alone : (∀ m ∈ ms, m = .proceed) → s.stage.isFinished = true → s = ofSight call cache inbound

/-- To look something up is no put. -/
theorem eq_looked_of_mem_looks {m : Mark} (hm : m ∈ call.looks) : m = .looked := by
  unfold Call.looks at hm
  split at hm
  · exact absurd hm List.not_mem_nil
  · exact List.mem_singleton.mp hm

/-- Every put of a call is under the key of its service. -/
theorem Standing.key_of_put {stage : Stage} (h : Standing call cache inbound l stage) {k : Key} {service : Service}
    {nodes : List String} (hmem : Mark.put k service nodes ∈ own l) : call.key? = some k := by
  have hlooks : Mark.put k service nodes ∉ call.looks := fun hm => absurd (eq_looked_of_mem_looks hm) (by simp)
  have hput {j : Key} {body : Service} {nodes' : List String} {queued : List Mark}
      (hkey : call.key? = some j) (hown : own l = call.looks ++ .put j body nodes' :: queued)
      (hqueued : Mark.put k service nodes ∉ queued) : call.key? = some k := by
    rw [hown, List.mem_append, List.mem_cons] at hmem
    obtain ⟨rfl, -, -⟩ := Mark.put.inj ((hmem.resolve_left hlooks).resolve_right hqueued)
    exact hkey
  have hnone (hown : own l = []) : call.key? = some k := by
    rw [hown] at hmem
    exact absurd hmem List.not_mem_nil
  cases stage with
  | called => exact hnone h
  | listing k => exact hnone h.2
  | failed k e => exact hnone h.2.2
  | chosen k nodes => exact absurd (h.2 ▸ hmem) hlooks
  | made c =>
    obtain ⟨j, nodes', hmade, hown⟩ := h
    exact hput hmade.key hown (by simp)
  | rated c wait =>
    obtain ⟨j, nodes', hrated, hown⟩ := h
    exact hput hrated.key hown (by simp)
  | finished =>
    rcases h with hignored | ⟨j, nodes', c, wait, hrated, hown⟩
    · cases hignored with
      | nameless _ hown => exact hnone hown
      | unknown _ _ _ _ hown _ =>
        rw [hown] at hmem
        exact absurd hmem (by simp)
    · exact hput hrated.key hown (by simp)

/-- After its only put, the cache holds nothing else of the service. -/
theorem Rated.agrees {k : Key} {nodes : List String} {c : Change} {wait : Duration}
    (h : Rated call cache inbound l k nodes c wait) (htold : Told cache inbound s l)
    (hown : own l = call.looks ++ [.put k call.body nodes, .queued (.recordFailure c), .queued (.addAfter c wait)])
    {e : Entry} (he : s.cache.get? k = some e) : e.service = call.body ∧ e.nodes = nodes := by
  obtain ⟨before, after, rfl, -⟩ := h.stored
  -- there is only one put, so that none comes after it
  have hafter : usesIn (own after) = [] := by
    have hlooks : usesIn call.looks = [] := by
      rw [usesIn, List.filterMap_eq_nil_iff]
      intro m hm
      rw [eq_looked_of_mem_looks hm]
      rfl
    have huses : usesIn (own before) ++ .put k call.body nodes :: usesIn (own after)
        = usesIn call.looks ++ [.put k call.body nodes] := by
      have hsame := congrArg usesIn hown
      rwa [own_append, usesIn_append, usesIn_append] at hsame
    have hlength := congrArg List.length huses
    rw [hlooks, List.length_append, List.length_cons, List.nil_append, List.length_singleton] at hlength
    exact List.length_eq_zero_iff.mp (by omega)
  have hput : ∀ use ∈ usesIn after, ¬ use.Puts k := by
    intro use hmem hputs
    have hmem := own_of_puts hmem hputs
    rw [hafter] at hmem
    exact List.not_mem_nil hmem
  have hcache : s.cache = Plan.cacheAfter ((Plan.cacheAfter cache (usesIn before)).put k call.body nodes)
      (usesIn after) := by
    rw [htold.cache_eq, usesIn_append, Plan.cacheAfter_append]
    rfl
  rw [hcache] at he
  have hstored := Plan.stored_before hput he
  rw [Cache.get?_put, if_pos rfl] at hstored
  obtain rfl := Option.some.inj hstored
  exact ⟨rfl, rfl⟩

/-- A change that tells what was stored before is no deletion. -/
theorem Tells.kind_ne {found : Option Entry} {c : Change} (h : Tells found c) : c.kind ≠ .deleted := by
  intro hdeleted
  cases found with
  | none =>
    have hcreated := h.created_iff.mpr rfl
    rw [hdeleted] at hcreated
    exact absurd hcreated (by decide)
  | some e =>
    have hupdated := h.updated_iff.mpr rfl
    rw [hdeleted] at hupdated
    exact absurd hupdated (by decide)

/-- **A call that has put its change into the queue has noted the service.** -/
theorem Rated.noted {k : Key} {nodes : List String} {c : Change} {wait : Duration}
    (h : Rated call cache inbound l k nodes c wait) (htold : Told cache inbound s l)
    (hown : own l = call.looks ++
      [.put k call.body nodes, .queued (.recordFailure c), .queued (.addAfter c wait)]) :
    Noted call cache inbound s l k nodes c wait := by
  have htells : Left (.put k call.body nodes) l fun before =>
      Tells ((Plan.cacheAfter cache (usesIn before)).get? k) c := by
    apply h.stored.mono
    rintro before rfl
    exact (tells_store _ k call.body nodes).1
  obtain ⟨hservice, hnodes⟩ : c.service = call.body ∧ c.nodes = nodes := by
    obtain ⟨before, -, -, rfl⟩ := h.stored
    exact (tells_store _ k call.body nodes).2
  have hplanned (cache' : Cache) (p : Plan) (hplan : Plan.ofChange cache' c = .ok p) :
      p.updates = Plan.updatesOf c.kind call.body nodes := by
    obtain ⟨before, -, -, htells⟩ := htells
    rw [Plan.updates_of_body htells.kind_ne hplan, hservice, hnodes]
  refine ⟨h.toChosen, hown, hservice, hnodes, htells, ?_, h.waits, ?_, hplanned, ?_⟩
  · intro e he
    rw [hservice, hnodes]
    exact h.agrees htold hown he
  · have hmem : Mark.queued (.addAfter c wait) ∈ own l := by
      rw [hown]
      simp
    obtain ⟨before, after, hl⟩ := List.append_of_mem (List.mem_filter.mp hmem).1
    exact ⟨before, after, hl, fun hopen => WorkQueue.Floor.takenWith_addAfter hopen c wait⟩
  · intro e entry c' cache₁ cache₂ p p' hanswer hentry hkind hservice' hnodes' hports hplan hplan'
    obtain ⟨entry', hentry', rfl, -⟩ := h.last e hanswer
    obtain rfl : entry = entry' := Option.some.inj (hentry.symm.trans hentry')
    rw [hplanned cache₁ p hplan, Plan.updates_of_body hkind hplan', hservice', hnodes']
    exact Plan.servers_updatesOf hports c.kind c'.kind entry.nodes

/-- A call that does nothing leaves no traces. -/
theorem Ignored.quiet (h : Ignored call cache l) (htold : Told cache inbound s l) : Quiet call cache inbound s l := by
  have hlooked : ∀ m ∈ own l, m = .looked := by
    intro m hm
    cases h with
    | nameless _ hown =>
      rw [hown] at hm
      exact absurd hm List.not_mem_nil
    | unknown _ _ _ _ hown _ =>
      rw [hown] at hm
      exact List.mem_singleton.mp hm
  refine ⟨h, ?_, ?_⟩
  · rw [htold.cache_eq, usesIn, usesIn, filterMap_others]
    intro m hm
    rw [hlooked m hm]
    rfl
  · rw [htold.inbound_eq, queueAfter, queueAfter, movesIn, movesIn, filterMap_others]
    intro m hm
    rw [hlooked m hm]
    rfl

/-- Whatever moves a run makes, the marks tell all of it, and tell how far the call has come. -/
theorem told_run (cache : Cache) (inbound : WorkQueue.Floor Change) {ms : List Move}
    (hl : (machine call).legal (start cache inbound) ms = true) :
    Told cache inbound ((machine call).run (start cache inbound) ms) (history call (start cache inbound) ms) ∧
      Standing call cache inbound (history call (start cache inbound) ms)
        ((machine call).run (start cache inbound) ms).stage := by
  have hstart : Told cache inbound (start cache inbound) [] ∧
      Standing call cache inbound [] (start cache inbound).stage :=
    ⟨⟨rfl, rfl⟩, rfl⟩
  exact (machine call).log_keeps
    (P := fun t l => Told cache inbound t l ∧ Standing call cache inbound l t.stage)
    (fun _ _ m h ha => ⟨h.1.next m, h.2.next h.1 ha⟩) hstart hl

/-- **What is stored and what is handed on agree.** Whatever the cache holds, whatever service is seen and however
the list of nodes ends, and whatever the others do meanwhile: the call does nothing, or it stores the service once
and hands on one change with the same body and the same addresses. These are the listed ones or, if the list
failed, those that were stored last. -/
theorem run_agrees (call : Call) (cache : Cache) (inbound : WorkQueue.Floor Change) (ms : List Move)
    (hl : (machine call).legal (start cache inbound) ms = true) :
    Conduct call cache inbound ms ((machine call).run (start cache inbound) ms)
      (history call (start cache inbound) ms) := by
  obtain ⟨htold, hstanding⟩ := told_run cache inbound hl
  refine ⟨htold, ?_, ?_, ?_, ?_, fun halone hfinished => run_alone halone (finished_of hfinished)⟩
  · intro j hj
    rw [htold.cache_eq]
    apply get?_others _ rfl
    rintro k service nodes hmem rfl
    exact hj (hstanding.key_of_put hmem)
  · exact Nat.le_trans (Nat.le_add_right _ _) (steps_le hl)
  · intro hopen
    rw [allows, hopen, Bool.not_false]
  · intro hfinished
    rw [finished_of hfinished] at hstanding
    rcases hstanding with hignored | ⟨k, nodes, c, wait, hrated, hown⟩
    · exact .inl (hignored.quiet htold)
    · exact .inr ⟨k, nodes, c, wait, hrated.noted htold hown⟩

/-- A body of a service with one port. -/
def tea (version : String) : Service where
  name := some "tea"
  namespaceName := some "default"
  version := some version
  ports := [⟨some "nlk-tea", some 30080⟩]

/-- Two services are stored, each with its own address. -/
def twoStored : Cache :=
  (Cache.empty.put ⟨"default", "tea"⟩ (tea "1") ["10.0.0.1"]).put ⟨"default", "coffee"⟩ {} ["10.0.0.2"]

/-- One of them is seen again, and the nodes cannot be listed. -/
def unlisted : Call where
  body := tea "2"
  answer := .error .cluster

/-- The watcher looks up the addresses. Before it stores the service, somebody plans for its deletion. -/
def withdrawnMeanwhile : List Move :=
  [.proceed, .proceed, .proceed, .plan (.of .deleted (tea "1") none []), .proceed, .use .take, .proceed,
    .use (.add (.of .deleted {} none [])), .proceed]

/-- The entry is gone when the service is stored, and the addresses are those that it had. -/
theorem run_agrees_withdrawn :
    (machine unlisted).legal (start twoStored (.start "q" ⟨1⟩ ⟨10⟩)) withdrawnMeanwhile = true ∧
      ((machine unlisted).run (start twoStored (.start "q" ⟨1⟩ ⟨10⟩)) withdrawnMeanwhile).stage.isFinished = true ∧
      Conduct unlisted twoStored (.start "q" ⟨1⟩ ⟨10⟩) withdrawnMeanwhile
        ((machine unlisted).run (start twoStored (.start "q" ⟨1⟩ ⟨10⟩)) withdrawnMeanwhile)
        (history unlisted (start twoStored (.start "q" ⟨1⟩ ⟨10⟩)) withdrawnMeanwhile) :=
  ⟨by decide +kernel, by decide +kernel,
    run_agrees unlisted twoStored (.start "q" ⟨1⟩ ⟨10⟩) withdrawnMeanwhile (by decide +kernel)⟩

end Sighting

end BorderSync
