/-
# BorderSync.Proofs.Watch.Effects -- what a move of an intake does to one key

A move does one of four things. A sight of a service writes to the cache; a sight of its end brings a
deletion on its way; a plan for a deletion takes that deletion off its way and the entry out of the
cache; everything else leaves the cache alone, and takes no deletion off its way without leaving
another one of the same key. All that is shown of an intake afterwards rests on these four cases.
-/
import BorderSync.Proofs.Text.Cut
import BorderSync.Proofs.Watch.Intake

namespace BorderSync

open Cluster Event

/-! ## Names -/

/-- Keys without a slash in their namespace are told apart by their text. -/
theorem Cluster.Key.text_inj {j k : Key} (hj : j.isPlain = true) (hk : k.isPlain = true)
    (h : j.text = k.text) : j = k := by
  have hlist : j.space.toList ++ '/' :: j.name.toList = k.space.toList ++ '/' :: k.name.toList := by
    simpa [text] using congrArg String.toList h
  obtain ⟨hspace, hname⟩ :=
    Text.cut_first (by simpa [isPlain] using hj) (by simpa [isPlain] using hk) hlist
  cases j
  cases k
  rw [Key.mk.injEq]
  exact ⟨String.toList_injective hspace, String.toList_injective hname⟩

/-- A service with a name is labelled by its key. -/
theorem Cluster.Key.text_of_ofService? {s : Service} {k : Key} (h : Key.ofService? s = some k) :
    s.label = k.text := by
  unfold ofService? at h
  obtain ⟨n, hn, rfl⟩ := Option.map_eq_some_iff.mp h
  simp [Service.label, Service.anyName, hn, text]

namespace Intake

variable {s : Intake}

/-- The key of a service has its namespace. -/
theorem plain_of_ofService? {b : Service} {k : Key} (h : Key.ofService? b = some k)
    (hb : b.hasPlainSpace = true) : k.isPlain = true := by
  unfold Key.ofService? at h
  obtain ⟨n, -, rfl⟩ := Option.map_eq_some_iff.mp h
  exact hb

/-- Equal changes delete the same key. -/
theorem coarse_deletes (k : Key) : Coarse (deletes k) := by
  intro a b h
  obtain ⟨hkind, hlabel, -, -⟩ : a.kind = b.kind ∧ a.label = b.label ∧ _ ∧ _ := by
    simpa [Change.identity] using Change.beq_iff.mp h
  unfold deletes
  rw [hkind, hlabel]

/-- Deletions of a key are those of services with that key. -/
theorem deletes_iff {c : Change} {j k : Key} (hc : c.kind = .deleted)
    (hj : Key.ofService? c.service = some j) (hb : c.service.hasPlainSpace = true) :
    deletes k c = decide (k = j) := by
  have hplain := plain_of_ofService? hj hb
  unfold deletes
  rw [hc, Change.label, Key.text_of_ofService? hj]
  by_cases h : k = j
  · simp [h, hplain]
  · by_cases hk : k.isPlain = true
    · have htext : j.text ≠ k.text := fun ht => h (Key.text_inj hk hplain ht.symm)
      simp [h, htext]
    · simp [h, hk]

/-! ## What holds at every moment -/

/-- **Sound**: the inbound queue is sound and open, and what is not planned for is in hand. -/
structure Sound (s : Intake) : Prop where
  inbound : s.inbound.Sound
  is_open : s.inbound.queue.closed = false
  in_hand : ∀ c, s.unplanned.contains c = true → s.inbound.hands.contains c = true

namespace Sound

theorem start (name : String) (base max : Duration) : (Intake.start name base max).Sound :=
  ⟨.start name base max, rfl, fun _ h => h⟩

/-- A move that does to the inbound queue what one of its own moves does, and hands out nothing. -/
theorem of_inbound (h : s.Sound) {t : Intake} {m : WorkQueue.Move Change}
    (hm : s.inbound.allows m = true) (hinbound : t.inbound = s.inbound.next m)
    (hopen : (s.inbound.next m).queue.closed = false)
    (hhands : ∀ c, t.unplanned.contains c = true → (s.inbound.next m).hands.contains c = true) :
    t.Sound := by
  refine ⟨?_, ?_, ?_⟩
  · rw [hinbound]
    exact h.inbound.next m hm
  · rw [hinbound]
    exact hopen
  · rw [hinbound]
    exact hhands

theorem take (h : s.Sound) : s.take.Sound := by
  cases hw : s.inbound.queue.waiting with
  | nil =>
    have hhand := WorkQueue.hand_of_empty hw
    rw [h.is_open, Bool.false_and, if_neg Bool.false_ne_true] at hhand
    unfold Intake.take
    rw [WorkQueue.Floor.take_of_empty hw, hhand]
    exact h
  | cons x rest =>
    have hhand := (s.inbound.queue.hand_eq_item_iff x).mpr ⟨rest, hw⟩
    refine ⟨h.inbound.take, ?_, ?_⟩
    · show s.inbound.queue.take.closed = false
      rw [WorkQueue.closed_take hw, h.is_open]
    · intro c hc
      unfold Intake.take at hc ⊢
      simp only [hhand] at hc
      rw [WorkQueue.Floor.hands_take hw]
      rw [List.contains_append, Bool.or_eq_true] at hc ⊢
      exact hc.imp_left (h.in_hand c)

/-- **Every allowed move keeps an intake sound.** -/
theorem next (h : s.Sound) (m : Move) (ha : s.allows m = true) : (s.next m).Sound := by
  cases m with
  | see sight nodes => exact ⟨h.inbound, h.is_open, h.in_hand⟩
  | rate =>
    show s.rate.Sound
    unfold rate
    split
    · rename_i c hc
      exact h.of_inbound (m := .recordFailure c) rfl rfl h.is_open h.in_hand
    · exact h
  | post =>
    show s.post.Sound
    unfold post
    split
    · rename_i c wait hc
      refine h.of_inbound (m := .addAfter c wait) rfl rfl ?_ h.in_hand
      exact (WorkQueue.closed_addAfter _ c wait).trans h.is_open
    · exact h
  | land c =>
    exact h.of_inbound (m := .land c) ha rfl ((WorkQueue.closed_land _ c).trans h.is_open) h.in_hand
  | take => exact h.take
  | plan c =>
    refine ⟨h.inbound, h.is_open, fun d hd => h.in_hand d ?_⟩
    obtain ⟨e, he, hde⟩ := List.contains_iff_exists_mem_beq.mp hd
    exact List.contains_iff_exists_mem_beq.mpr ⟨e, List.mem_of_mem_eraseP he, hde⟩
  | forget c => exact h.of_inbound (m := .forget c) rfl rfl h.is_open h.in_hand
  | done c =>
    obtain ⟨hhand, hplanned⟩ := Bool.and_eq_true_iff.mp ha
    refine h.of_inbound (m := .done c) hhand rfl h.is_open ?_
    intro d hd
    have hdunplanned : s.unplanned.contains d = true := hd
    show (s.inbound.hands.eraseP (· == c)).contains d = true
    rw [contains_eraseP h.inbound.hands_once, h.in_hand d hdunplanned, Bool.true_and, Bool.not_eq_true']
    -- what is not planned for is not what is done
    refine Bool.eq_false_iff.mpr ?_
    intro hdc
    rw [← List.contains_congr hdc, hdunplanned] at hplanned
    exact absurd hplanned (by simp)

end Sound

/-! ## The four cases -/

/-- The key that a mark is about. -/
def Mark.key : Mark → Key
  | .applied k _ _ _ => k
  | .deleted k => k
  | .planned k _ _ => k

/-- **Effect** of a move on what the cache says of a key and on the deletions of the key that are under
way, by the marks that the move leaves. -/
inductive Effect (k : Key) (s t : Intake) : List Mark → Prop where
  | applied (body : Service) (nodes : List String) (hview : t.view k = some (body, nodes))
      (hpending : t.pending k = s.pending k) :
      Effect k s t [.applied k body nodes (decide (0 < s.pending k))]
  | deleted (hview : t.view k = s.view k) (hpending : t.pending k = s.pending k + 1) :
      Effect k s t [.deleted k]
  | planned (hview : t.view k = none) (hpending : t.pending k + 1 = s.pending k) :
      Effect k s t [.planned k (s.view k) (Plan.cleanup (s.view k))]
  | aside {l : List Mark} (hkey : ∀ m ∈ l, m.key ≠ k) (hview : t.view k = s.view k)
      (hle : t.pending k ≤ s.pending k) (hpos : 0 < s.pending k → 0 < t.pending k) :
      Effect k s t l

variable {k : Key}

/-- A move that leaves no mark and changes neither view nor number has no effect. -/
theorem Effect.none {s t : Intake} (hview : t.view k = s.view k)
    (hpending : t.pending k = s.pending k) : Effect k s t [] :=
  .aside (by simp) hview (Nat.le_of_eq hpending) fun h => hpending ▸ h

/-- A service that is seen is stored, and the change that tells of it deletes nothing. -/
theorem apply_of_ofService? (cache : Cache) {b : Service} {j : Key}
    (hj : Key.ofService? b = some j) (nodes : List String) :
    (Watch.apply cache b (.ok nodes)).cache = cache.put j b nodes ∧
      ∃ c, (Watch.apply cache b (.ok nodes)).change = some c ∧ c.kind ≠ .deleted := by
  unfold Watch.apply
  rw [hj]
  refine ⟨rfl, _, rfl, ?_⟩
  show (if (cache.get? j).isSome then Kind.updated else .created) ≠ .deleted
  split <;> simp

/-- A service without a name leads to nothing. -/
theorem apply_nameless (cache : Cache) {b : Service} (hb : Key.ofService? b = none)
    (listing : Watch.Listing) :
    (Watch.apply cache b listing).cache = cache ∧ (Watch.apply cache b listing).change = none := by
  unfold Watch.apply
  rw [hb]
  exact ⟨rfl, rfl⟩

/-- What was stored is what the cache says. -/
theorem view_put (s t : Intake) {j : Key} {b : Service} {nodes : List String}
    (h : t.cache = s.cache.put j b nodes) :
    t.view k = if k = j then some (b, nodes) else s.view k := by
  unfold view
  rw [h, Cache.get?_put]
  split <;> rfl

/-- A service is seen. -/
theorem effect_apply (hout : s.outbox.change? = none) (b : Service) (nodes : List String) {t : Intake}
    (hcache : t.cache = (Watch.apply s.cache b (.ok nodes)).cache)
    (houtbox : t.outbox = .of? (Watch.apply s.cache b (.ok nodes)).change)
    (hinbound : t.inbound = s.inbound) (hunplanned : t.unplanned = s.unplanned) :
    Effect k s t (s.applyMarks b nodes) := by
  unfold applyMarks
  cases hb : Key.ofService? b with
  | none =>
    obtain ⟨hsame, hchange⟩ := apply_nameless s.cache hb (.ok nodes)
    refine .none ?_ ?_
    · unfold view
      rw [hcache, hsame]
    · unfold pending
      rw [houtbox, hchange, hinbound, hunplanned, hout]
      rfl
  | some j =>
    obtain ⟨hput, c, hchange, hkind⟩ := apply_of_ofService? s.cache hb nodes
    have hview := view_put (k := k) s t (hcache.trans hput)
    -- the change that is made is no deletion
    have hdeletes : deletes k c = false := by simp [deletes, hkind]
    have hpending : t.pending k = s.pending k := by
      unfold pending
      rw [houtbox, hchange, hinbound, hunplanned, hout]
      simp [hdeletes]
    by_cases hkj : k = j
    · subst hkj
      rw [if_pos rfl] at hview
      exact .applied b nodes hview hpending
    · rw [if_neg hkj] at hview
      exact .aside (by simpa [Mark.key] using Ne.symm hkj) hview (Nat.le_of_eq hpending)
        fun h => hpending ▸ h

/-- A service is gone. -/
theorem effect_delete (hout : s.outbox.change? = none) (b : Service)
    (hb : b.hasPlainSpace = true) (nodes : List String) :
    Effect k s (s.see (.deleted b) nodes) (deleteMarks b) := by
  unfold deleteMarks
  cases hj : Key.ofService? b with
  | none =>
    refine .none ?_ ?_
    · simp [see, Watch.observe, Watch.delete, hj, view]
    · simp [see, Watch.observe, Watch.delete, hj, pending, hout]
  | some j =>
    have hview : (s.see (.deleted b) nodes).view k = s.view k := by
      simp [see, Watch.observe, Watch.delete, hj, view]
    have hdeletes : deletes k (.of .deleted b none []) = decide (k = j) :=
      deletes_iff rfl hj hb
    have hpending : (s.see (.deleted b) nodes).pending k = s.pending k + (decide (k = j)).toNat := by
      simp only [see, Watch.observe, Watch.delete, hj, pending, Outbox.change?_of?, hout,
        Option.toList_some, Option.toList_none, List.countP_nil, List.countP_singleton, hdeletes]
      cases decide (k = j) <;> simp
      omega
    by_cases hkj : k = j
    · subst hkj
      rw [decide_eq_true rfl] at hpending
      exact .deleted hview hpending
    · rw [decide_eq_false hkj] at hpending
      exact .aside (by simpa [Mark.key] using Ne.symm hkj) hview (Nat.le_of_eq hpending)
        fun h => hpending ▸ h

/-- The watcher puts its change into the queue. -/
theorem effect_post (h : s.Sound) : Effect k s s.post [] := by
  unfold post
  split
  · rename_i c wait hout
    obtain ⟨hle, hle', hpos⟩ :=
      WorkQueue.Floor.load_addAfter (coarse_deletes k) s.inbound h.is_open c wait
    refine .aside (by simp) rfl ?_ ?_
    -- what leaves the outbox is in the load, or equal to something there
    all_goals
      simp only [pending, hout, Outbox.change?, Option.toList_some, Option.toList_none,
        List.countP_singleton, List.countP_nil]
      cases hc : deletes k c with
      | false =>
        rw [hc, Bool.toNat_false] at hle'
        simp only [Bool.false_eq_true, if_false]
        omega
      | true =>
        have := hpos hc
        rw [hc, Bool.toNat_true] at hle'
        simp only [if_true]
        omega
  · exact .none rfl rfl

/-- A consumer looks for a change. -/
theorem effect_take (h : s.Sound) : Effect k s s.take [] := by
  refine .none rfl ?_
  unfold pending take
  cases hw : s.inbound.queue.waiting with
  | nil =>
    have hhand := WorkQueue.hand_of_empty hw
    rw [h.is_open, Bool.false_and, if_neg Bool.false_ne_true] at hhand
    rw [WorkQueue.Floor.take_of_empty hw, hhand]
  | cons c rest =>
    have hload := WorkQueue.Floor.load_take (coarse_deletes k) h.inbound.queue hw
    rw [(s.inbound.queue.hand_eq_item_iff c).mpr ⟨rest, hw⟩]
    simp only [List.countP_append, List.countP_singleton]
    cases hc : deletes k c <;> rw [hc] at hload <;> simp at hload ⊢ <;> omega

/-- A consumer plans for a change. -/
theorem effect_plan {c : Change} (ha : s.allows (.plan c) = true) :
    Effect k s (s.plan c) (s.planMarks c) := by
  obtain ⟨hname, hplain⟩ := Bool.and_eq_true_iff.mp ha
  obtain ⟨hheld, hname⟩ := Bool.and_eq_true_iff.mp hname
  obtain ⟨n, hn⟩ := Option.isSome_iff_exists.mp hname
  obtain ⟨j, hj⟩ : ∃ j, Key.ofService? c.service = some j := ⟨_, by rw [Key.ofService?, hn]; rfl⟩
  have hcount := countP_eraseP (coarse_deletes k) hheld
  have hpending : (s.plan c).pending k + (deletes k c).toNat = s.pending k := by
    simp only [pending, plan]
    omega
  by_cases hc : c.kind = .deleted
  · -- the entry of the key goes, and so does this deletion
    have hplan : s.planFor c = Plan.ofDeletion j s.cache := by
      unfold planFor
      rw [Plan.ofChange_deleted s.cache hc hj]
    have hview : (s.plan c).view k = if k = j then none else s.view k := by
      unfold view plan
      rw [hplan, Plan.get?_ofDeletion]
      split <;> rfl
    have hmarks : s.planMarks c = [.planned j (s.view j) (Plan.cleanup (s.view j))] := by
      unfold planMarks
      rw [hc, hj, hplan, Plan.updates_ofDeletion]
      rfl
    rw [deletes_iff hc hj hplain] at hpending
    rw [hmarks]
    by_cases hkj : k = j
    · subst hkj
      rw [if_pos rfl] at hview
      rw [decide_eq_true rfl] at hpending
      exact .planned hview hpending
    · rw [if_neg hkj] at hview
      rw [decide_eq_false hkj, Bool.toNat_false, Nat.add_zero] at hpending
      exact .aside (by simpa [Mark.key] using Ne.symm hkj) hview (Nat.le_of_eq hpending)
        fun h => hpending ▸ h
  · have hplan : s.planFor c = Plan.ofBody c.kind c.service c.nodes s.cache := by
      unfold planFor
      rw [Plan.ofChange_body s.cache hc hj]
    have hmarks : s.planMarks c = [] := by
      unfold planMarks
      cases h : c.kind with
      | deleted => exact absurd h hc
      | created => rfl
      | updated => rfl
    have hdeletes : deletes k c = false := by simp [deletes, hc]
    rw [hdeletes, Bool.toNat_false, Nat.add_zero] at hpending
    rw [hmarks]
    refine .none ?_ hpending
    unfold view plan
    rw [hplan]
    rfl

/-- **Every allowed move has one of the four effects.** -/
theorem effect (h : s.Sound) (m : Move) (ha : s.allows m = true) :
    Effect k s (s.next m) (s.marks m) := by
  cases m with
  | see sight nodes =>
    obtain ⟨hout, hplain⟩ := Bool.and_eq_true_iff.mp ha
    rw [Option.isNone_iff_eq_none] at hout
    cases sight with
    | listBegins => exact .none rfl (by simp [next, see, pending, Watch.observe, hout])
    | listEnds => exact .none rfl (by simp [next, see, pending, Watch.observe, hout])
    | listed b => exact effect_apply hout b nodes rfl rfl rfl rfl
    | applied b => exact effect_apply hout b nodes rfl rfl rfl rfl
    | deleted b => exact effect_delete hout b hplain nodes
  | rate =>
    show Effect k s s.rate []
    unfold rate
    split
    · rename_i c hout
      exact .none rfl (by simp only [pending, hout]; rfl)
    · exact .none rfl rfl
  | post => exact effect_post h
  | land c =>
    obtain ⟨hle, hpos⟩ := WorkQueue.Floor.load_land (coarse_deletes k) s.inbound ha
    refine .aside (by simp [marks]) rfl ?_ ?_ <;> (simp only [pending, next]; omega)
  | take => exact effect_take h
  | plan c => exact effect_plan ha
  | forget c => exact .none rfl rfl
  | done c => exact .none rfl rfl

end Intake

end BorderSync
