/-
# BorderSync.Proofs.Watch.Relist -- a watch that starts over with a list

A watch that was cut off starts over with a list of all services. By the contract of such a watch, what
was there before and does not come up in the list is gone. The watcher does not draw this conclusion:
the beginning and the end of a list tell it nothing of any service. This module says what a watcher
hands on in all of its runs, lists included, and that an entry outlives every list that misses its
service.

The nodes may be impossible to list at a sight. Then the addresses that are remembered stand in, and a
service of which nothing is remembered is left alone.
-/
import BorderSync.Proofs.Watch.Remembered

namespace BorderSync.Relist

open Cluster Event Watch

/-! ## What sights say -/

/-- The service that a sight shows to be there. -/
def there? : Sight → Option Service
  | .listed b => some b
  | .applied b => some b
  | _ => none

/-- The key that a sight is about. -/
def key? (sight : Sight) : Option Key :=
  (Intake.seen? sight).bind Key.ofService?

/-- **Standing** of a key by the contract of a watch. -/
structure Standing where
  there : Bool := false
  /-- The service has come up since the last list began. -/
  listed : Bool := false

/-- The standing of a key after a sight: what a complete list has not shown is gone. -/
def Standing.next (k : Key) (c : Standing) (sight : Sight) : Standing :=
  match sight with
  | .listBegins => { c with listed := false }
  | .listEnds => { c with there := c.listed }
  | .deleted _ => if key? sight = some k then ⟨false, false⟩ else c
  | _ => if key? sight = some k then ⟨true, true⟩ else c

/-- The service of a key is there after these sights. -/
def alive (k : Key) (sights : List Sight) : Bool :=
  (sights.foldl (Standing.next k) {}).there

/-- **Tiding**: what a change tells of a service. -/
inductive Tiding where
  | there (body : Service) (nodes : List String)
  | gone (body : Service)
  deriving DecidableEq, Repr

/-- What a change tells. -/
def Tiding.ofChange (c : Change) : Tiding :=
  match c.kind with
  | .deleted => .gone c.service
  | _ => .there c.service c.nodes

/-- What a sight tells, with these addresses: nothing without a service that has a name. -/
def Tiding.ofSight? (sight : Sight) (nodes : List String) : Option Tiding :=
  match sight, key? sight with
  | .listed b, some _ => some (.there b nodes)
  | .applied b, some _ => some (.there b nodes)
  | .deleted b, some _ => some (.gone b)
  | _, _ => none

/-! ## The machine -/

/-- **Move** of an intake whose list of nodes may fail. -/
inductive Move where
  | own (m : Intake.Move)
  /-- The watcher sees something, and cannot list the nodes. -/
  | blind (sight : Sight) (e : Error)
  deriving Repr

/-- The watcher sees something, and cannot list the nodes. -/
def blind (s : Intake) (sight : Sight) (e : Error) : Intake :=
  let o := observe s.cache (.error e) sight
  { s with cache := o.cache, outbox := .of? o.change }

/-- The intake after a move. -/
def next (s : Intake) : Move → Intake
  | .own m => s.next m
  | .blind sight e => blind s sight e

/-- A sight is allowed whether or not the nodes can be listed. -/
def allows (s : Intake) : Move → Bool
  | .own m => s.allows m
  | .blind sight _ => s.allows (.see sight [])

/-- **The machine of an intake whose list of nodes may fail.** -/
def machine : Machine Intake Move :=
  ⟨allows, next⟩

/-- The addresses that stand in for a list of nodes, if the sight is not to be left alone. -/
def standIn? (cache : Cache) (sight : Sight) : Option (List String) :=
  match (there? sight).bind Key.ofService? with
  | none => some []
  | some k => (cache.get? k).map Entry.nodes

/-- A deletion of the key that a sight is about is under way. -/
def isChased (s : Intake) (sight : Sight) : Bool :=
  match key? sight with
  | none => false
  | some k => decide (0 < s.pending k)

/-- **Mark** of a move. -/
inductive Mark where
  /-- Something is seen, with the addresses that go with it; the last part says whether a deletion of the
  same key is under way at that moment. -/
  | saw (sight : Sight) (nodes : List String) (chased : Bool)
  /-- A service is seen and left alone: there are no addresses to go with it. -/
  | leftAlone (sight : Sight)
  /-- The watcher puts a change into the queue. -/
  | handed (c : Change)
  /-- A consumer plans for a change, and asks for these updates. -/
  | planned (c : Change) (updates : List Update)

/-- **The marks of a move.** -/
def marks (s : Intake) : Move → List Mark
  | .own (.see sight nodes) => [.saw sight nodes (isChased s sight)]
  | .blind sight _ =>
    match standIn? s.cache sight with
    | some nodes => [.saw sight nodes (isChased s sight)]
    | none => [.leftAlone sight]
  | .own .post =>
    match s.outbox with
    | .rated c _ => [.handed c]
    | _ => []
  | .own (.plan c) => [.planned c (s.planFor c).updates]
  | _ => []

/-- The marks of a run. -/
def history (s : Intake) (ms : List Move) : List Mark :=
  machine.log marks s ms

/-- The sight that a mark shows. -/
def Mark.sight? : Mark → Option Sight
  | .saw sight _ _ => some sight
  | .leftAlone sight => some sight
  | _ => none

/-- The change that a mark puts into the queue. -/
def Mark.handed? : Mark → Option Change
  | .handed c => some c
  | _ => none

/-- What the sight of a mark tells. -/
def Mark.tiding? : Mark → Option Tiding
  | .saw sight nodes _ => Tiding.ofSight? sight nodes
  | _ => none

/-- The mark is about the key. -/
def Mark.IsAbout (k : Key) (m : Mark) : Prop :=
  ∃ sight, m.sight? = some sight ∧ key? sight = some k

/-! ## A sight without a list of nodes -/

variable {s : Intake}

/-- Without a list of nodes a service is seen as with the addresses that stand in. -/
theorem apply_error (cache : Cache) (b : Service) (e : Error) :
    (apply cache b (.error e)).cache =
        (match standIn? cache (.applied b) with
        | some nodes => (apply cache b (.ok nodes)).cache
        | none => cache) ∧
      (apply cache b (.error e)).change =
        (match standIn? cache (.applied b) with
        | some nodes => (apply cache b (.ok nodes)).change
        | none => none) := by
  unfold apply standIn?
  simp only [there?, Option.bind_some]
  cases Key.ofService? b with
  | none => exact ⟨rfl, rfl⟩
  | some k =>
    simp only [addresses?]
    cases (cache.get? k).map Entry.nodes <;> exact ⟨rfl, rfl⟩

/-- Without a list of nodes the intake sees with the addresses that stand in, or nothing at all. -/
theorem blind_eq {sight : Sight} (ha : s.allows (.see sight []) = true) (e : Error) :
    blind s sight e =
      match standIn? s.cache sight with
      | some nodes => s.see sight nodes
      | none => s := by
  have hout : s.outbox = .empty := by
    obtain ⟨hout, -⟩ := Bool.and_eq_true_iff.mp ha
    rw [Option.isNone_iff_eq_none] at hout
    cases h : s.outbox with
    | empty => rfl
    | made c => simp [h, Outbox.change?] at hout
    | rated c wait => simp [h, Outbox.change?] at hout
  have happly (b : Service) (hstand : standIn? s.cache sight = standIn? s.cache (.applied b))
      (hobserve : ∀ listing, observe s.cache listing sight = apply s.cache b listing) :
      blind s sight e =
        match standIn? s.cache sight with
        | some nodes => s.see sight nodes
        | none => s := by
    obtain ⟨hcache, hchange⟩ := apply_error s.cache b e
    unfold blind Intake.see
    simp only [hobserve]
    rw [hcache, hchange, hstand]
    cases standIn? s.cache (.applied b) with
    | some nodes => rfl
    | none => rw [Outbox.of?, ← hout]
  cases sight with
  | listBegins => rfl
  | listEnds => rfl
  | deleted b => rfl
  | listed b => exact happly b rfl fun _ => rfl
  | applied b => exact happly b rfl fun _ => rfl

/-- **A move is one of the intake itself**, or it leaves a service alone. -/
theorem own_of_allows {m : Move} (ha : allows s m = true) :
    (∃ m', s.allows m' = true ∧ next s m = s.next m' ∧ marks s m = marks s (.own m')) ∨
      ∃ sight, next s m = s ∧ marks s m = [.leftAlone sight] := by
  cases m with
  | own m => exact .inl ⟨m, ha, rfl, rfl⟩
  | blind sight e =>
    have hnext := blind_eq ha e
    cases hstand : standIn? s.cache sight with
    | some nodes =>
      rw [hstand] at hnext
      exact .inl ⟨.see sight nodes, ha, hnext, by simp [marks, hstand]⟩
    | none =>
      rw [hstand] at hnext
      exact .inr ⟨sight, hnext, by simp [marks, hstand]⟩

/-- **Every allowed move keeps an intake sound.** -/
theorem sound_next (h : s.Sound) (m : Move) (ha : allows s m = true) : (next s m).Sound := by
  rcases own_of_allows ha with ⟨m', ha', hnext, -⟩ | ⟨sight, hnext, -⟩
  · rw [hnext]
    exact h.next m' ha'
  · rw [hnext]
    exact h

/-! ## What is handed on -/

/-- What the watcher has in hand after a sight is what the sight tells. -/
theorem tiding_observe (cache : Cache) (sight : Sight) (nodes : List String) :
    (observe cache (.ok nodes) sight).change.map Tiding.ofChange = Tiding.ofSight? sight nodes := by
  have happly (b : Service) : (apply cache b (.ok nodes)).change.map Tiding.ofChange =
      (Key.ofService? b).map fun _ => Tiding.there b nodes := by
    unfold apply
    cases Key.ofService? b with
    | none => rfl
    | some k =>
      show some (Tiding.ofChange (.of (if (cache.get? k).isSome then .updated else .created) b _ nodes)) = _
      split <;> rfl
  cases sight with
  | listBegins => rfl
  | listEnds => rfl
  | listed b =>
    refine (happly b).trans ?_
    simp only [Tiding.ofSight?, key?, Intake.seen?, Option.bind_some]
    cases Key.ofService? b <;> rfl
  | applied b =>
    refine (happly b).trans ?_
    simp only [Tiding.ofSight?, key?, Intake.seen?, Option.bind_some]
    cases Key.ofService? b <;> rfl
  | deleted b =>
    simp only [observe, delete, Tiding.ofSight?, key?, Intake.seen?, Option.bind_some]
    cases Key.ofService? b <;> rfl

/-- **Tells**: the changes that were handed on, and the one in hand, tell what the sights tell. -/
def Tells (s : Intake) (l : List Mark) : Prop :=
  (l.filterMap Mark.handed? ++ s.outbox.change?.toList).map Tiding.ofChange = l.filterMap Mark.tiding?

/-- A move that neither sees anything nor hands anything on. -/
theorem Tells.silent {t : Intake} {l l' : List Mark} (h : Tells s l)
    (hout : t.outbox.change? = s.outbox.change?) (hhanded : l'.filterMap Mark.handed? = [])
    (htiding : l'.filterMap Mark.tiding? = []) : Tells t (l ++ l') := by
  unfold Tells
  rw [List.filterMap_append, List.filterMap_append, hhanded, htiding, hout, List.append_nil,
    List.append_nil]
  exact h

/-- **Every allowed move hands on what the sights tell.** -/
theorem Tells.next {l : List Mark} (h : Tells s l) (m : Move) (ha : allows s m = true) :
    Tells (next s m) (l ++ marks s m) := by
  rcases own_of_allows ha with ⟨m', ha', hnext, hmarks⟩ | ⟨sight, hnext, hmarks⟩
  · rw [hnext, hmarks]
    cases m' with
    | see sight nodes =>
      obtain ⟨hout, -⟩ := Bool.and_eq_true_iff.mp ha'
      rw [Option.isNone_iff_eq_none] at hout
      unfold Tells at h ⊢
      rw [hout, Option.toList_none, List.append_nil] at h
      -- the watcher had nothing in hand, and has the change of this sight now
      have hnew := tiding_observe s.cache sight nodes
      simp only [marks, Intake.next, Intake.see, Outbox.change?_of?, List.filterMap_append,
        List.map_append, h]
      cases hc : (observe s.cache (.ok nodes) sight).change <;> rw [hc] at hnew <;>
        simp [Mark.handed?, Mark.tiding?, ← hnew]
    | rate =>
      refine h.silent ?_ rfl rfl
      show s.rate.outbox.change? = _
      unfold Intake.rate
      split
      · rename_i c hc
        rw [hc]
        rfl
      · rfl
    | post =>
      unfold Tells at h ⊢
      simp only [marks, Intake.next, Intake.post]
      cases hc : s.outbox with
      | rated c wait =>
        rw [hc] at h
        simpa [List.filterMap_append, List.filterMap_cons, Mark.handed?, Mark.tiding?, Outbox.change?] using h
      | empty => simpa [hc] using h
      | made c => simpa [hc] using h
    | plan c => exact h.silent rfl rfl rfl
    | land c => exact h.silent rfl rfl rfl
    | take => exact h.silent rfl rfl rfl
    | forget c => exact h.silent rfl rfl rfl
    | done c => exact h.silent rfl rfl rfl
  · rw [hnext, hmarks]
    exact h.silent rfl rfl rfl

/-! ## What is kept -/

variable {k : Key} {body : Service} {nodes : List String}

/-- **Held**: the key has this entry, and no deletion of it is under way. -/
structure Held (k : Key) (body : Service) (nodes : List String) (s : Intake) : Prop where
  view : s.view k = some (body, nodes)
  pending : s.pending k = 0

/-- A sight of a service is about its key. -/
theorem key?_of_there? {sight : Sight} (h : there? sight = some body) :
    key? sight = Key.ofService? body := by
  cases sight with
  | listed b => exact congrArg (Option.bind · Key.ofService?) h
  | applied b => exact congrArg (Option.bind · Key.ofService?) h
  | listBegins => exact absurd h (by simp [there?])
  | listEnds => exact absurd h (by simp [there?])
  | deleted b => exact absurd h (by simp [there?])

/-- The mark that a service is seen or gone is left by a sight of its key. -/
theorem see_of_mem_marks {m : Intake.Move} {mark : Intake.Mark} (h : mark ∈ s.marks m) :
    (∃ sight nodes, m = .see sight nodes ∧ key? sight = some mark.key) ∨
      ∃ j found updates, mark = .planned j found updates := by
  have happly (b : Service) (nodes : List String) (h : mark ∈ s.applyMarks b nodes) :
      Key.ofService? b = some mark.key := by
    unfold Intake.applyMarks at h
    split at h
    · exact absurd h List.not_mem_nil
    · rename_i j hj
      rw [List.mem_singleton.mp h, hj]
      rfl
  cases m with
  | see sight nodes =>
    refine .inl ⟨sight, nodes, rfl, ?_⟩
    cases sight with
    | listBegins => exact absurd h List.not_mem_nil
    | listEnds => exact absurd h List.not_mem_nil
    | listed b => exact happly b nodes h
    | applied b => exact happly b nodes h
    | deleted b =>
      show Key.ofService? b = _
      simp only [Intake.marks, Intake.deleteMarks] at h
      split at h
      · exact absurd h List.not_mem_nil
      · rename_i j hj
        rw [List.mem_singleton.mp h, hj]
        rfl
  | plan c =>
    simp only [Intake.marks, Intake.planMarks] at h
    split at h
    · exact .inr ⟨_, _, _, List.mem_singleton.mp h⟩
    · exact absurd h List.not_mem_nil
  | rate => exact absurd h List.not_mem_nil
  | post => exact absurd h List.not_mem_nil
  | land c => exact absurd h List.not_mem_nil
  | take => exact absurd h List.not_mem_nil
  | forget c => exact absurd h List.not_mem_nil
  | done c => exact absurd h List.not_mem_nil

/-- What is held stays held, or the key is seen again. -/
theorem Held.next (h : Held k body nodes s) (hs : s.Sound) (m : Move) (ha : allows s m = true) :
    Held k body nodes (next s m) ∨ ∃ mark ∈ marks s m, mark.IsAbout k := by
  rcases own_of_allows ha with ⟨m', ha', hnext, hmarks⟩ | ⟨sight, hnext, hmarks⟩
  · rw [hnext, hmarks]
    -- the mark that the service is seen or gone is left by a sight
    have hseen (mark : Intake.Mark) (hmark : mark ∈ s.marks m') (hkey : mark.key = k)
        (hkind : ∀ j found updates, mark ≠ .planned j found updates) :
        ∃ mark ∈ marks s (.own m'), mark.IsAbout k := by
      rcases see_of_mem_marks hmark with ⟨sight, nodes', rfl, hsight⟩ | ⟨j, found, updates, hplanned⟩
      · exact ⟨_, List.mem_singleton_self _, sight, rfl, hkey ▸ hsight⟩
      · exact absurd hplanned (hkind j found updates)
    have heffect := Intake.effect (k := k) hs m' ha'
    generalize hl : s.marks m' = l at heffect
    cases heffect with
    | applied body' nodes' hview hpending =>
      exact .inr (hseen _ (hl ▸ List.mem_singleton_self _) rfl (by simp))
    | deleted hview hpending =>
      exact .inr (hseen _ (hl ▸ List.mem_singleton_self _) rfl (by simp))
    | planned hview hpending =>
      have := h.pending
      omega
    | aside hkey hview hle hpos =>
      exact .inl ⟨hview.trans h.view, Nat.le_zero.mp (h.pending ▸ hle)⟩
  · rw [hnext]
    exact .inl h

/-- What is seen is held, if no deletion of it is under way. -/
theorem held_of_saw (hs : s.Sound) {m : Move} (ha : allows s m = true) {sight : Sight}
    (hthere : there? sight = some body) (hkey : Key.ofService? body = some k)
    (hmark : .saw sight nodes false ∈ marks s m) : Held k body nodes (next s m) := by
  rcases own_of_allows ha with ⟨m', ha', hnext, hmarks⟩ | ⟨sight', hnext, hmarks⟩
  · rw [hmarks] at hmark
    rw [hnext]
    cases m' with
    | see sight' nodes' =>
      obtain ⟨rfl, rfl, hchased⟩ : sight = sight' ∧ nodes = nodes' ∧ false = isChased s sight' := by
        simpa [marks] using hmark
      have hmarks' : s.marks (.see sight nodes) = [.applied k body nodes (decide (0 < s.pending k))] := by
        cases sight with
        | listed b =>
          obtain rfl : b = body := by simpa [there?] using hthere
          simp [Intake.marks, Intake.applyMarks, hkey]
        | applied b =>
          obtain rfl : b = body := by simpa [there?] using hthere
          simp [Intake.marks, Intake.applyMarks, hkey]
        | listBegins => simp [there?] at hthere
        | listEnds => simp [there?] at hthere
        | deleted b => simp [there?] at hthere
      have hnone : s.pending k = 0 := by
        rw [isChased, key?_of_there? hthere, hkey] at hchased
        simpa using hchased.symm
      have heffect := Intake.effect (k := k) hs (.see sight nodes) ha'
      rw [hmarks'] at heffect
      cases heffect with
      | applied _ _ hview hpending => exact ⟨hview, hpending.trans hnone⟩
      | aside hother hview hle hpos => exact absurd rfl (hother _ (List.mem_singleton_self _))
    | post =>
      simp only [marks] at hmark
      split at hmark <;> simp at hmark
    | plan c => simp [marks] at hmark
    | rate => exact absurd hmark List.not_mem_nil
    | land c => exact absurd hmark List.not_mem_nil
    | take => exact absurd hmark List.not_mem_nil
    | forget c => exact absurd hmark List.not_mem_nil
    | done c => exact absurd hmark List.not_mem_nil
  · rw [hmarks] at hmark
    simp at hmark

/-- No plan for a deletion of a key that is held is allowed. -/
theorem Held.no_deletion (h : Held k body nodes s) {c : Change} (ha : s.allows (.plan c) = true)
    (hc : c.kind = .deleted) : Key.ofService? c.service ≠ some k := by
  intro hkey
  obtain ⟨hname, hplain⟩ := Bool.and_eq_true_iff.mp ha
  obtain ⟨hheld, -⟩ := Bool.and_eq_true_iff.mp hname
  have hdeletes : Intake.deletes k c = true := by
    rw [Intake.deletes_iff hc hkey hplain, decide_eq_true rfl]
  have hcount := countP_eraseP (Intake.coarse_deletes k) hheld
  have hpending := h.pending
  rw [hdeletes, Bool.toNat_true] at hcount
  unfold Intake.pending at hpending
  omega

/-- The mark of a plan is the only one of its move. -/
theorem plan_of_marks {m : Move} {c : Change} {updates : List Update} {l₁ l₂ : List Mark}
    (h : marks s m = l₁ ++ .planned c updates :: l₂) :
    m = .own (.plan c) ∧ updates = (s.planFor c).updates ∧ l₁ = [] := by
  have hmem : .planned c updates ∈ marks s m := h ▸ List.mem_append_right _ List.mem_cons_self
  unfold marks at hmem
  split at hmem
  · simp at hmem
  · split at hmem <;> simp at hmem
  · split at hmem <;> simp at hmem
  · rename_i d
    obtain ⟨rfl, rfl⟩ : c = d ∧ updates = (s.planFor d).updates := by simpa using hmem
    refine ⟨rfl, rfl, ?_⟩
    have hlength : 1 = l₁.length + (l₂.length + 1) := by simpa [marks] using congrArg List.length h
    exact List.length_eq_zero_iff.mp (by omega)
  · simp at hmem

/-- Only the plan for a deletion takes servers away. -/
theorem kind_of_mem_planFor {c : Change} (hc : c.kind ≠ .deleted) {u : Update}
    (hu : u ∈ (s.planFor c).updates) : u.kind ≠ .deleted := by
  unfold Intake.planFor at hu
  cases hkey : Key.ofService? c.service with
  | none => simp [Plan.ofChange, hkey] at hu
  | some j =>
    rw [Plan.ofChange_body s.cache hc hkey] at hu
    obtain ⟨p, -, hp⟩ := List.mem_filterMap.mp hu
    rw [Plan.kind_of_updateOf? hp]
    exact hc

/-! ## All runs -/

/-- **Relists**: what a watcher has handed on and what the cache keeps, whatever lists have begun and
ended in the run. -/
structure Relists (s : Intake) (l : List Mark) : Prop where
  /-- The changes in the queue, and the one in hand, tell what the single sights tell, in order: each
  deletion is that of a service that was seen to go, and no list brings one about. -/
  tells : Tells s l
  /-- A service that was seen while no deletion of it was under way has the entry of that sight until the
  key is seen again. Lists that miss it make no difference. -/
  kept : ∀ k body nodes sight before after, l = before ++ .saw sight nodes false :: after →
    there? sight = some body → Key.ofService? body = some k →
      (∀ m ∈ after, ¬ m.IsAbout k) → s.view k = some (body, nodes)
  /-- No deletion of it is planned for in the meantime. -/
  spared : ∀ k body nodes sight before between after c updates,
    l = before ++ .saw sight nodes false :: between ++ .planned c updates :: after →
      there? sight = some body → Key.ofService? body = some k → (∀ m ∈ between, ¬ m.IsAbout k) →
        c.kind = .deleted → Key.ofService? c.service ≠ some k
  /-- Nothing but the plan for a deletion takes servers away from a border server. -/
  only : ∀ c updates, .planned c updates ∈ l → ∀ u ∈ updates, u.kind = .deleted → c.kind = .deleted

/-- A service that was seen is held until the key is seen again. -/
theorem held_of_history {name : String} {base max : Duration} {ms : List Move}
    (hl : machine.legal (.start name base max) ms = true) {sight : Sight} {before after : List Mark}
    (h : history (.start name base max) ms = before ++ .saw sight nodes false :: after)
    (hthere : there? sight = some body) (hkey : Key.ofService? body = some k)
    (hafter : ∀ m ∈ after, ¬ m.IsAbout k) : Held k body nodes (machine.run (.start name base max) ms) := by
  rcases machine.log_answers marks (Held k body nodes) (Mark.IsAbout k)
    (fun _ m hs ha => sound_next hs m ha) (fun _ m hs ha hheld => hheld.next hs m ha)
    (fun _ _ hs ha hmark => held_of_saw hs ha hthere hkey hmark)
    (.start name base max) hl h with hheld | ⟨m, hm, habout⟩
  · exact hheld
  · exact absurd habout (hafter m hm)

/-- **What starting over with a list does**, in every run of a watcher, the inbound queue and any number
of consumers. -/
theorem run_relists (name : String) (base max : Duration) (ms : List Move)
    (hl : machine.legal (.start name base max) ms = true) :
    Relists (machine.run (.start name base max) ms) (history (.start name base max) ms) := by
  refine ⟨?_, ?_, ?_, ?_⟩
  · have hstart : Tells (.start name base max) [] := rfl
    exact machine.log_keeps (fun _ _ m h ha => h.next m ha) hstart hl
  · intro k body nodes sight before after h hthere hkey hafter
    exact (held_of_history hl h hthere hkey hafter).view
  · intro k body nodes sight before between after c updates h hthere hkey hbetween hc
    obtain ⟨ms₁, m, ms₂, l₁, l₂, rfl, hmark, hbefore⟩ := machine.log_split h
    obtain ⟨hl₁, hl₂⟩ := (machine.legal_append _ _ _).mp hl
    obtain ⟨rfl, -, rfl⟩ := plan_of_marks hmark
    rw [List.append_nil] at hbefore
    have hheld := held_of_history hl₁ hbefore.symm hthere hkey hbetween
    exact hheld.no_deletion ((machine.legal_cons _ _ _).mp hl₂).1 hc
  · intro c updates hmem u hu hdeleted
    obtain ⟨before, after, h⟩ := List.append_of_mem hmem
    obtain ⟨ms₁, m, ms₂, l₁, l₂, rfl, hmark, -⟩ := machine.log_split h
    obtain ⟨-, rfl, -⟩ := plan_of_marks hmark
    exact Decidable.byContradiction fun hc => kind_of_mem_planFor hc hu hdeleted

/-- A service is seen in the first list, and the next list, after the watch was cut off, misses it. -/
def vanishing : List Move :=
  List.map .own <| [.see .listBegins [], .see (.listed (Intake.web "1")) ["10.0.0.1"], .rate, .post]
    ++ Intake.passage (.of .created (Intake.web "1") none ["10.0.0.1"])
    ++ [.see .listEnds [], .see .listBegins [], .see .listEnds []]

/-- A run in which a service vanishes. -/
theorem run_relists_vanishing :
    machine.legal (.start "inbound" ⟨1⟩ ⟨10⟩) vanishing = true ∧
      Relists (machine.run (.start "inbound" ⟨1⟩ ⟨10⟩) vanishing)
        (history (.start "inbound" ⟨1⟩ ⟨10⟩) vanishing) :=
  ⟨by decide, run_relists "inbound" ⟨1⟩ ⟨10⟩ vanishing (by decide)⟩

/-- A service may be gone by the contract of the watch when everything is done, although no deletion was
handed on and its entry is still there. -/
theorem vanished_stays : ¬ ∀ (name : String) (base max : Duration) (ms : List Move),
    machine.legal (.start name base max) ms = true →
      (machine.run (.start name base max) ms).isIdle = true →
        ∀ k, alive k ((history (.start name base max) ms).filterMap Mark.sight?) = false →
          (machine.run (.start name base max) ms).view k = none := by
  intro h
  have hview := h "inbound" ⟨1⟩ ⟨10⟩ vanishing (by decide) (by decide) ⟨"default", "web"⟩ (by decide)
  revert hview
  decide

end BorderSync.Relist
