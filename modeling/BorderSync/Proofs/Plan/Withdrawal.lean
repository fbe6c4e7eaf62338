/-
# BorderSync.Proofs.Plan.Withdrawal -- a deletion takes away what was applied last

The plan for a deletion is the plan that an update to the remembered state would get, turned into deletions:
it names the upstreams, client types and servers that were applied last, whatever the deletion itself says.
The entry is used up by that, so that a second deletion finds nothing, however much else is planned in
between. All other plans leave the cache alone.
-/
import BorderSync.Proofs.Plan

namespace BorderSync

open Cluster Event

/-- The update that takes away what an update asks for. -/
def Event.Update.withdrawn (u : Update) : Update :=
  { u with kind := .deleted }

namespace Plan

variable {cache : Cache} {k : Key}

/-! ## Uses of a cache -/

/-- **Use** of a cache: a change is planned for, or the state of a service is put. -/
inductive Use where
  | plan (c : Change)
  | put (k : Key) (service : Service) (nodes : List String)

namespace Use

/-- The cache after a use; a change without a plan leaves it as it is. -/
def after (cache : Cache) : Use → Cache
  | .plan c =>
    match ofChange cache c with
    | .ok p => p.cache
    | .error _ => cache
  | .put k service nodes => cache.put k service nodes

/-- The use stores something under a key. -/
def Puts (k : Key) : Use → Prop
  | .plan _ => False
  | .put j _ _ => j = k

/-- The use takes out what is stored under a key. -/
def Takes (k : Key) : Use → Prop
  | .plan c => c.kind = .deleted ∧ Key.ofService? c.service = some k
  | .put _ _ _ => False

/-- Only the plan for a deletion of a named service uses anything up. -/
theorem after_eq (cache : Cache) {c : Change} (hc : c.kind ≠ .deleted ∨ Key.ofService? c.service = none) :
    (plan c).after cache = cache := by
  cases hk : Key.ofService? c.service with
  | none => simp only [after, ofChange, hk]
  | some j =>
    have hkind : c.kind ≠ .deleted := hc.resolve_right (by simp [hk])
    simp only [after, ofChange_body cache hkind hk]
    rfl

theorem after_deletion (cache : Cache) {c : Change} (hc : c.kind = .deleted)
    (hk : Key.ofService? c.service = some k) : (plan c).after cache = (ofDeletion k cache).cache := by
  simp only [after, ofChange_deleted cache hc hk]

/-- A use that takes a key out leaves nothing under it. -/
theorem get?_of_takes {use : Use} (htakes : use.Takes k) : (use.after cache).get? k = none := by
  cases use with
  | plan c =>
    obtain ⟨hc, hk⟩ := htakes
    rw [after_deletion cache hc hk, get?_ofDeletion, if_pos rfl]
  | put j service nodes => exact htakes.elim

/-- A use that neither puts nor takes out a key leaves it as it is. -/
theorem get?_of_apart {use : Use} (hputs : ¬ use.Puts k) (htakes : ¬ use.Takes k) :
    (use.after cache).get? k = cache.get? k := by
  cases use with
  | plan c =>
    by_cases hc : c.kind = .deleted
    · cases hj : Key.ofService? c.service with
      | none => rw [after_eq cache (.inr hj)]
      | some j =>
        have hne : k ≠ j := by
          rintro rfl
          exact htakes ⟨hc, hj⟩
        rw [after_deletion cache hc hj, get?_ofDeletion, if_neg hne]
    · rw [after_eq cache (.inl hc)]
  | put j service nodes =>
    have hne : k ≠ j := by
      rintro rfl
      exact hputs rfl
    exact (cache.get?_put j k service nodes).trans (if_neg hne)

/-- What a use leaves under a key depends on nothing but what was there. -/
theorem get?_congr {cache' : Cache} (use : Use) (h : cache'.get? k = cache.get? k) :
    (use.after cache').get? k = (use.after cache).get? k := by
  cases use with
  | plan c =>
    by_cases htakes : (plan c).Takes k
    · rw [get?_of_takes htakes, get?_of_takes htakes]
    · rw [get?_of_apart id htakes, get?_of_apart id htakes, h]
  | put j service nodes =>
    show (cache'.put j service nodes).get? k = (cache.put j service nodes).get? k
    rw [Cache.get?_put, Cache.get?_put]
    by_cases hj : k = j
    · rw [if_pos hj, if_pos hj, ← hj, h]
    · rw [if_neg hj, if_neg hj, h]

end Use

/-- The cache after many uses. -/
def cacheAfter (cache : Cache) (uses : List Use) : Cache :=
  uses.foldl Use.after cache

theorem cacheAfter_append (cache : Cache) (uses uses' : List Use) :
    cacheAfter cache (uses ++ uses') = cacheAfter (cacheAfter cache uses) uses' :=
  List.foldl_append

/-- **What is gone stays gone** until it is put again. -/
theorem gone_after {uses : List Use} (hgone : cache.get? k = none) (hputs : ∀ use ∈ uses, ¬ use.Puts k) :
    (cacheAfter cache uses).get? k = none := by
  induction uses generalizing cache with
  | nil => exact hgone
  | cons use uses ih =>
    refine ih ?_ fun use' h => hputs use' (List.mem_cons_of_mem use h)
    by_cases htakes : use.Takes k
    · exact Use.get?_of_takes htakes
    · exact (Use.get?_of_apart (hputs use List.mem_cons_self) htakes).trans hgone

/-- **What is stored stays stored** until it is put again or taken out. -/
theorem kept_after {uses : List Use} (hapart : ∀ use ∈ uses, ¬ use.Puts k ∧ ¬ use.Takes k) :
    (cacheAfter cache uses).get? k = cache.get? k := by
  induction uses generalizing cache with
  | nil => rfl
  | cons use uses ih =>
    obtain ⟨hputs, htakes⟩ := hapart use List.mem_cons_self
    refine (ih fun use' h => hapart use' (List.mem_cons_of_mem use h)).trans ?_
    exact Use.get?_of_apart hputs htakes

/-- **What is found was there before**, if it was not put. -/
theorem stored_before {uses : List Use} {e : Entry} (hputs : ∀ use ∈ uses, ¬ use.Puts k)
    (he : (cacheAfter cache uses).get? k = some e) : cache.get? k = some e := by
  induction uses generalizing cache with
  | nil => exact he
  | cons use uses ih =>
    have hafter : (use.after cache).get? k = some e := ih (fun use' h => hputs use' (List.mem_cons_of_mem use h)) he
    by_cases htakes : use.Takes k
    · rw [Use.get?_of_takes htakes] at hafter
      exact absurd hafter (by simp)
    · rwa [Use.get?_of_apart (hputs use List.mem_cons_self) htakes] at hafter

/-! ## Deletions and updates -/

/-- **The path of a deletion is the path of an update**: ports, upstreams, client types and servers are the
same, and only the kind differs. -/
theorem updatesOf_deleted (s : Service) (nodes : List String) :
    updatesOf .deleted s nodes = (updatesOf .updated s nodes).map Update.withdrawn := by
  unfold updatesOf
  rw [List.map_filterMap]
  congr 1
  funext p
  unfold updateOf?
  split
  · split <;> rfl
  · rfl

/-- A clean-up withdraws what an update to the remembered state asks for. -/
theorem cleanup_eq {e : Cluster.Entry} (hnodes : e.nodes ≠ []) :
    cleanup (some e.sight) = (updatesOf .updated e.service e.nodes).map Update.withdrawn := by
  have hsome : ¬ e.nodes.isEmpty = true := by simpa using hnodes
  rw [← updatesOf_deleted]
  exact if_neg hsome

/-- Ports and addresses decide upstreams and servers. -/
theorem servers_updatesOf {s s' : Service} (hports : s.ports = s'.ports) (kind kind' : Kind)
    (nodes : List String) :
    (updatesOf kind s nodes).map (fun u => (u.upstream, u.servers))
      = (updatesOf kind' s' nodes).map fun u => (u.upstream, u.servers) := by
  unfold updatesOf
  rw [List.map_filterMap, List.map_filterMap, hports]
  congr 1
  funext p
  unfold updateOf?
  split
  · split <;> rfl
  · rfl

/-- Two caches that have seen the same of a service make the same plan for its deletion. -/
theorem ofDeletion_congr {cache' : Cache}
    (hsight : (cache'.get? k).map Entry.sight = (cache.get? k).map Entry.sight) :
    (ofDeletion k cache').updates = (ofDeletion k cache).updates ∧
      (ofDeletion k cache').reports = (ofDeletion k cache).reports := by
  refine ⟨by rw [updates_ofDeletion, updates_ofDeletion, hsight], ?_⟩
  unfold ofDeletion
  cases h : cache.get? k with
  | none =>
    rw [h, Option.map_none, Option.map_eq_none_iff] at hsight
    rw [hsight]
  | some e =>
    rw [h, Option.map_some, Option.map_eq_some_iff] at hsight
    obtain ⟨e', he', hsight⟩ := hsight
    rw [he']
    obtain ⟨hservice, hnodes⟩ := Prod.mk.inj hsight
    simp only [hnodes]
    split
    · rfl
    · exact congrArg portReports hservice

/-! ## What a plan does -/

/-- **Withdrawal**: the plan for a deletion of a key, given the cache that it is made from. -/
structure Withdrawal (cache : Cache) (k : Key) (p : Plan) : Prop where
  unknown : cache.get? k = none → p.updates = []
  unplaced : ∀ e, cache.get? k = some e → e.nodes = [] → p.updates = []
  /-- The updates are those that the remembered body asks for on the remembered nodes, withdrawn. -/
  mirrors : ∀ e, cache.get? k = some e → e.nodes ≠ [] →
    p.updates = (updatesOf .updated e.service e.nodes).map Update.withdrawn
  /-- Whatever plan is made for an update to the remembered state, it is this one that is withdrawn. -/
  as_updated : ∀ e cache' c' p', cache.get? k = some e → e.nodes ≠ [] → c'.kind = .updated →
    c'.service = e.service → c'.nodes = e.nodes → ofChange cache' c' = .ok p' →
      p.updates = p'.updates.map Update.withdrawn
  /-- In particular, it is the state that was put last, if it was not taken out since. -/
  as_applied : ∀ (before : Cache) s nodes uses, cache = cacheAfter (before.put k s nodes) uses →
    (∀ use ∈ uses, ¬ use.Puts k ∧ ¬ use.Takes k) → nodes ≠ [] →
      p.updates = (updatesOf .updated s nodes).map Update.withdrawn
  /-- Nothing else plays a part: not the change, and not what the cache holds otherwise. -/
  blind : ∀ cache' c', c'.kind = .deleted → Key.ofService? c'.service = some k →
    (cache'.get? k).map Entry.sight = (cache.get? k).map Entry.sight →
      ∃ p', ofChange cache' c' = .ok p' ∧ p'.updates = p.updates ∧ p'.reports = p.reports
  used_up : p.cache.get? k = none
  keeps : ∀ j, j ≠ k → p.cache.get? j = cache.get? j
  /-- Whatever is planned and put afterwards, a second deletion finds nothing unless the key is put again. -/
  spent : ∀ uses c', (∀ use ∈ uses, ¬ use.Puts k) → c'.kind = .deleted → Key.ofService? c'.service = some k →
    ∃ p', ofChange (cacheAfter p.cache uses) c' = .ok p' ∧ p'.updates = []

theorem withdrawal_ofDeletion (cache : Cache) (k : Key) : Withdrawal cache k (ofDeletion k cache) where
  unknown hnone := by
    rw [updates_ofDeletion, hnone]
    rfl
  unplaced e he hnodes := by
    rw [updates_ofDeletion, he, Option.map_some, cleanup, Entry.sight, hnodes]
    rfl
  mirrors e he hnodes := by
    rw [updates_ofDeletion, he, Option.map_some, cleanup_eq hnodes]
  as_updated := by
    intro e cache' c' p' he hnodes hkind hservice hsame hplan
    have hbody : p'.updates = updatesOf .updated e.service e.nodes := by
      rw [updates_of_body (by simp [hkind]) hplan, hkind, hservice, hsame]
    rw [updates_ofDeletion, he, Option.map_some, cleanup_eq hnodes, hbody]
  as_applied := by
    intro before s nodes uses hcache hapart hnodes
    have he : cache.get? k = some (Cache.renewed (before.get? k) s nodes) := by
      rw [hcache, kept_after hapart, before.get?_put, if_pos rfl]
    rw [updates_ofDeletion, he, Option.map_some, cleanup_eq hnodes]
    rfl
  blind cache' c' hkind hkey hsight :=
    ⟨_, ofChange_deleted cache' hkind hkey, ofDeletion_congr hsight⟩
  used_up := by rw [get?_ofDeletion, if_pos rfl]
  keeps j hj := by rw [get?_ofDeletion, if_neg hj]
  spent := by
    intro uses c' hputs hkind hkey
    have hgone : (ofDeletion k cache).cache.get? k = none := by
      rw [get?_ofDeletion, if_pos rfl]
    refine ⟨_, ofChange_deleted _ hkind hkey, ?_⟩
    rw [updates_ofDeletion, gone_after hgone hputs]
    rfl

/-- **Translation**: what the plan for a change makes of a cache. -/
structure Translation (cache : Cache) (c : Change) : Prop where
  /-- Only a service without a name has no plan. -/
  nameless : (∃ e, ofChange cache c = .error e) ↔ c.service.name = none
  /-- Without a deletion of a named service the cache stays as it is. -/
  unchanged : c.kind ≠ .deleted ∨ c.service.name = none → (Use.plan c).after cache = cache
  deletion : ∀ k, c.kind = .deleted → Key.ofService? c.service = some k →
    ∃ p, ofChange cache c = .ok p ∧ (Use.plan c).after cache = p.cache ∧ Withdrawal cache k p

/-- **A deletion takes away what was applied last**, whatever the cache holds and whatever the deletion says,
and nothing but deletions changes the cache. -/
theorem ofChange_withdraws (cache : Cache) (c : Change) : Translation cache c where
  nameless := by
    unfold ofChange Key.ofService?
    cases c.service.name with
    | none => simp
    | some name =>
      simp only [Option.map_some, reduceCtorEq, iff_false, not_exists]
      intro e
      split <;> simp
  unchanged hc := by
    refine Use.after_eq cache (hc.imp_right fun hname => ?_)
    rw [Key.ofService?, hname, Option.map_none]
  deletion k hkind hkey :=
    ⟨_, ofChange_deleted cache hkind hkey, Use.after_deletion cache hkind hkey, withdrawal_ofDeletion cache k⟩

/-- The cache after one service was applied. -/
def applied : Cache :=
  Cache.empty.put ⟨"default", "web"⟩
    { name := some "web", namespaceName := some "default", version := some "1"
      ports := [⟨some "nlk-tea", some 30080⟩, ⟨some "metrics", some 30090⟩] } ["10.0.0.1", "10.0.0.2"]

/-- The deletion of this service, whose body has another port and another client type by now. -/
def outdated : Change where
  kind := .deleted
  service :=
    { name := some "web", namespaceName := some "default", version := some "2"
      annotations := [("nginxinc.io/nlk-milk", "stream")], ports := [⟨some "nlk-milk", some 30081⟩] }
  previous := none
  nodes := []

/-- What was applied is deleted, not what the deletion says. -/
theorem ofChange_withdraws_outdated :
    ∃ p, ofChange applied outdated = .ok p ∧
      p.updates = [{ kind := .deleted, upstream := "tea", clientType := "http"
                     servers := ["10.0.0.1:30080", "10.0.0.2:30080"] }] ∧
        p.cache.get? ⟨"default", "web"⟩ = none := by
  obtain ⟨p, hplan, -, hwithdrawal⟩ :=
    (ofChange_withdraws applied outdated).deletion ⟨"default", "web"⟩ rfl (by decide)
  refine ⟨p, hplan, ?_, hwithdrawal.used_up⟩
  rw [hwithdrawal.mirrors _ rfl (by decide)]
  decide

end Plan

end BorderSync
