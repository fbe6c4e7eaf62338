/-
# BorderSync.Proofs.Border.Mended -- what failed attempts leave, the next one mends

An attempt that fails leaves a shelf on which some of its work is done. The next attempt lists again and
works on with what it finds. A wanted entry is never deleted on the way, and an address that is there is
never posted again; so however often attempts fail, and wherever, an attempt none of whose requests fails
leaves exactly the wanted addresses.
-/
import BorderSync.Proofs.Border.Difference
import BorderSync.Proofs.Border.Failure
import BorderSync.Proofs.Border.Upkeep

namespace BorderSync.Border

namespace Upkeep

open Endpoint (Location)

/-! ## How far an attempt has come -/

/-- The most requests that one attempt makes. -/
def bound (aim : Aim) (original : Shelf) : Nat :=
  1 + aim.wanted.length + original.length

/-- **Writing**: what an attempt has still to post and to delete makes up the wanted addresses, what it has
to post is missing, and so many requests are left to it. -/
structure Writing (aim : Aim) (original : Shelf) (s : Upkeep) (posts : List Entry) (deletions : Shelf) :
    Prop where
  owes : s.shelf.Owes aim.addresses (posts.map Entry.bare) deletions
  fits : ∀ p ∈ posts, p.Fits
  once : (posts.map Entry.server).Nodup
  missing : ∀ p ∈ posts, p.server ∉ s.shelf.addresses
  not_failed : s.failed = false
  asked_le : s.asked + posts.length + deletions.length ≤ bound aim original

/-- **Stage** of the latest attempt: there is none, it is about to list, it is writing, or it has given up. -/
inductive Stage (aim : Aim) (original : Shelf) (s : Upkeep) : Prop where
  | unbegun (hcall : s.call = none) (hfailed : s.failed = false) (hasked : s.asked = 0)
  | listing (hcall : s.call = some aim.attempt) (hfailed : s.failed = false) (hasked : s.asked = 0)
  | writing (posts : List Entry) (deletions : Shelf) (changes : Changes)
      (hcall : s.call = some (aim.client.writing aim.context aim.upstream posts deletions changes))
      (hwriting : Writing aim original s posts deletions)
  | gaveUp (e : Error) (hcall : s.call = some (.done (.error e))) (hfailed : s.failed = true)
      (hasked : s.asked ≤ bound aim original)

/-- **Open request**: what an attempt asks, and what it does when that is granted. -/
inductive Open (aim : Aim) (original : Shelf) (s : Upkeep) (q : Request)
    (next : Answer → Call (Except Error Changes)) : Prop where
  | listing (hq : q.method = .get)
      (hnext : ∀ r listed, r.isSuccess = true → Entry.decodeList? aim.context r.body = some listed →
        ∃ changes, next (.ok r) = aim.client.writing aim.context aim.upstream
          (Reconcile.additions listed aim.wanted) (Reconcile.removals listed aim.wanted) changes)
      (hunreadable : ∀ r, r.isSuccess = true → Entry.decodeList? aim.context r.body = none →
        ∃ e, next (.ok r) = .done (.error e))
      (hfailed : s.failed = false) (hasked : s.asked = 0)
  | posting (p : Entry) (posts : List Entry) (deletions : Shelf) (changes : Changes)
      (hq : q.method = .post) (hbody : q.body = some (p.encode aim.context))
      (hnext : ∀ r, r.isSuccess = true →
        next (.ok r) = aim.client.writing aim.context aim.upstream posts deletions changes)
      (hwriting : Writing aim original s (p :: posts) deletions)
  | deleting (d : Int × String) (deletions : Shelf) (changes : Changes)
      (hq : q.method = .delete) (hlast : q.location.segments.getLast? = some (toString d.1))
      (hnext : ∀ r, r.isSuccess = true →
        next (.ok r) = aim.client.writing aim.context aim.upstream [] deletions changes)
      (hwriting : Writing aim original s [] (d :: deletions))

variable {aim : Aim} {original added : Shelf} {s : Upkeep} {l : Location}
  (hl : aim.client.serversAt aim.context aim.upstream none = .ok l)

include hl in
/-- **What an attempt asks**: the entries, the next post, or the next deletion. -/
theorem Stage.openRequest (h : Stage aim original s) {q : Request}
    {next : Answer → Call (Except Error Changes)} (hcall : s.call = some (.ask q next)) :
    Open aim original s q next := by
  cases h with
  | unbegun hnone => exact absurd (hnone.symm.trans hcall) (by simp)
  | gaveUp e herror => exact absurd (herror.symm.trans hcall) (by simp)
  | listing hlisting hfailed hasked =>
    have hattempt : aim.attempt = .ask q next := Option.some.inj (hlisting.symm.trans hcall)
    obtain ⟨next', hask, hnext⟩ := Client.update_lists hl aim.wanted
    obtain ⟨rfl, rfl⟩ := Call.ask.inj (hattempt.symm.trans hask)
    refine .listing rfl (fun r listed hr hlisted => ⟨_, hnext r listed hr hlisted⟩) ?_ hfailed hasked
    exact fun r hr hbody => aim.client.update_unreadable aim.context aim.upstream hl aim.wanted hask hr hbody
  | writing posts deletions changes hcall' hwriting =>
    have hasks : aim.client.writing aim.context aim.upstream posts deletions changes = .ask q next :=
      Option.some.inj (hcall'.symm.trans hcall)
    cases posts with
    | cons p posts =>
      obtain ⟨next', hask, hnext⟩ := Client.writing_post hl p posts deletions changes
      obtain ⟨rfl, rfl⟩ := Call.ask.inj (hasks.symm.trans hask)
      exact .posting p posts deletions changes rfl rfl hnext hwriting
    | nil =>
      cases deletions with
      | cons d deletions =>
        obtain ⟨next', hask, hnext⟩ := Client.writing_delete hl d deletions changes
        obtain ⟨rfl, rfl⟩ := Call.ask.inj (hasks.symm.trans hask)
        exact .deleting d deletions changes rfl (by simp) hnext hwriting
      | nil => exact absurd hasks (by simp [Client.writing, Call.each, Call.onSuccess, Call.andThen])

/-- What is asked gives up at the first refusal. -/
theorem Stage.givesUp (h : Stage aim original s) {c : Call (Except Error Changes)}
    (hcall : s.call = some c) : c.GivesUp := by
  cases h with
  | unbegun hnone => exact absurd (hnone.symm.trans hcall) (by simp)
  | listing hlisting =>
    rw [← Option.some.inj (hlisting.symm.trans hcall)]
    exact aim.client.update_givesUp aim.context aim.upstream aim.wanted
  | writing posts deletions changes hwriting =>
    rw [← Option.some.inj (hwriting.symm.trans hcall)]
    exact aim.client.writing_givesUp aim.context aim.upstream posts deletions changes
  | gaveUp e herror =>
    rw [← Option.some.inj (herror.symm.trans hcall)]
    trivial

/-- **Sound**: what the server holds fits what was added, and the attempt knows what is left. -/
structure Sound (aim : Aim) (original : Shelf) (s : Upkeep) (added : Shelf) : Prop where
  holds : s.shelf.Holds aim original added
  stage : Stage aim original s

namespace Open

variable {q : Request} {next : Answer → Call (Except Error Changes)}

/-- Whatever is asked keeps the wanted entries when it is carried out. -/
theorem carriedOut (h : Open aim original s q next) (hholds : s.shelf.Holds aim original added) {id : Int}
    (hid : q.method = .post → id ∉ s.shelf.ids) :
    (s.shelf.serve aim.context q id).Holds aim original (added ++ Shelf.gained aim.context q id) := by
  cases h with
  | listing hq =>
    rw [Shelf.serve_of_not_writes (by simp [Request.writes, hq])]
    simpa [Shelf.gained, hq] using hholds
  | posting p posts deletions changes hq hbody hnext hwriting =>
    have hp := hwriting.fits p List.mem_cons_self
    have hgained : Shelf.gained aim.context q id = [(id, p.server)] := by
      simp [Shelf.gained, hq, hbody, Entry.decode?_encode aim.context hp, Entry.server_shown]
    obtain ⟨a, ha, heq⟩ := hwriting.owes.posts_wanted p.bare List.mem_cons_self
    have hwanted : p.server ∈ aim.addresses := by
      rwa [show p.server = a from congrArg Entry.server heq]
    rw [Shelf.serve_post hq hbody hp, hgained]
    exact hholds.append (hid hq) hwanted (hwriting.missing p List.mem_cons_self)
  | deleting d deletions changes hq hlast hnext hwriting =>
    have hd : d ∈ s.shelf ∧ d.2 ∉ aim.addresses := by
      have hmem : d ∈ s.shelf.filter fun e => !aim.addresses.contains e.2 :=
        hwriting.owes.unwanted ▸ List.mem_cons_self
      simpa using hmem
    rw [Shelf.serve_delete hq hlast, show Shelf.gained aim.context q id = [] by simp [Shelf.gained, hq],
      List.append_nil]
    exact hholds.delete hd.1 (by simpa [Aim.wants] using hd.2)

theorem asked_lt (h : Open aim original s q next) : s.asked < bound aim original := by
  cases h with
  | listing _ _ _ _ hasked =>
    unfold bound
    omega
  | posting p posts deletions changes _ _ _ hwriting =>
    have hle := hwriting.asked_le
    rw [List.length_cons] at hle
    omega
  | deleting d deletions changes _ _ _ hwriting =>
    have hle := hwriting.asked_le
    rw [List.length_cons] at hle
    omega

/-- **A failure ends the attempt**, whichever request it is that fails. -/
theorem ends_of_fails (h : Open aim original s q next) (hgivesUp : (Call.ask q next).GivesUp) {a : Answer}
    (ha : fails aim.context q a = true) : ∃ e, next a = .done (.error e) := by
  cases hrefuses : refuses a with
  | true => exact (hgivesUp a).1 hrefuses
  | false =>
    -- the answer is a list that cannot be read
    cases a with
    | error fault => exact absurd hrefuses (by simp [refuses])
    | ok r =>
      have hr : r.isSuccess = true := by simpa [refuses] using hrefuses
      simp only [fails, hr, Bool.not_true, Bool.false_or, Bool.and_eq_true, beq_iff_eq,
        Option.isNone_iff_eq_none] at ha
      cases h with
      | listing _ _ hunreadable => exact hunreadable r hr ha.2
      | posting _ _ _ _ hq => exact absurd (hq.symm.trans ha.1) (by simp)
      | deleting _ _ _ hq => exact absurd (hq.symm.trans ha.1) (by simp)

/-- **A grant leads to the rest of the work.** -/
theorem granted (h : Open aim original s q next) (hfits : ∀ w ∈ aim.wanted, w.Fits)
    (hholds : s.shelf.Holds aim original added) {r : Response} {id : Int}
    (hgrants : s.shelf.grants aim.context q id (.ok r) = true) {s' : Upkeep}
    (hshelf : s'.shelf = s.shelf.serve aim.context q id) (hcall : s'.call = some (next (.ok r)))
    (hfailed : s'.failed = s.failed) (hasked : s'.asked = s.asked + 1) : Stage aim original s' := by
  obtain ⟨r', heq, hr⟩ := Shelf.response_of_grants hgrants
  obtain rfl : r = r' := Except.ok.inj heq
  cases h with
  | listing hq hnext _ hnot hzero =>
    have hlisted : s.shelf.isListedBy aim.context r.body = true := by
      simp only [Shelf.grants, hq, Bool.and_eq_true] at hgrants
      exact hgrants.2
    obtain ⟨listed, hdecode, hshows⟩ := Shelf.shows_of_isListedBy hlisted
    obtain ⟨changes, hwriting⟩ := hnext r listed hr hdecode
    have hsame : s'.shelf = s.shelf := by
      rw [hshelf, Shelf.serve_of_not_writes (by simp [Request.writes, hq])]
    have howes := Reconcile.owes_of_listed hshows hholds.ids_once aim.wanted
    refine .writing _ _ changes (hcall.trans (congrArg some hwriting)) ⟨hsame ▸ howes, ?_,
      Reconcile.nodup_additions listed aim.wanted, ?_, hfailed.trans hnot, ?_⟩
    · intro p hp
      obtain ⟨⟨w, hw, rfl⟩, -⟩ := Reconcile.of_mem_additions hp
      exact ⟨by simp [Reconcile.withoutId], (hfits w hw).weight, (hfits w hw).maxFails⟩
    · intro p hp hmem
      rw [hsame, hshows.mem_addresses] at hmem
      obtain ⟨e, he, hserver⟩ := hmem
      exact (Reconcile.of_mem_additions hp).2 e he hserver
    · have hposts := Reconcile.length_additions_le listed aim.wanted
      have hdeletions : (Reconcile.removals listed aim.wanted).length ≤ original.length := by
        rw [howes.unwanted]
        exact Nat.le_trans hholds.unwanted.length_le (List.length_filter_le _ _)
      unfold bound
      omega
  | posting p posts deletions changes hq hbody hnext hwriting =>
    have hp := hwriting.fits p List.mem_cons_self
    have hserve := Shelf.serve_post hq hbody hp s.shelf id
    obtain ⟨hnotin, honce⟩ := List.nodup_cons.mp hwriting.once
    refine .writing posts deletions changes (hcall.trans (congrArg some (hnext r hr))) ⟨?_, ?_, honce, ?_,
      hfailed.trans hwriting.not_failed, ?_⟩
    · rw [hshelf, hserve]
      exact hwriting.owes.append (Shelf.fresh_of_grants hq hgrants)
    · exact fun p' hp' => hwriting.fits p' (List.mem_cons_of_mem p hp')
    · intro p' hp' hmem
      rw [hshelf, hserve, Shelf.addresses, List.map_append, List.mem_append] at hmem
      rcases hmem with hmem | hmem
      · exact hwriting.missing p' (List.mem_cons_of_mem p hp') hmem
      · have heq : p'.server = p.server := by simpa using hmem
        exact hnotin (heq ▸ List.mem_map_of_mem hp')
    · have hle := hwriting.asked_le
      rw [List.length_cons] at hle
      omega
  | deleting d deletions changes hq hlast hnext hwriting =>
    refine .writing [] deletions changes (hcall.trans (congrArg some (hnext r hr))) ⟨?_, by simp, by simp,
      by simp, hfailed.trans hwriting.not_failed, ?_⟩
    · rw [hshelf]
      exact hwriting.owes.delete hq hlast id
    · have hle := hwriting.asked_le
      rw [List.length_cons] at hle
      omega

end Open

theorem call_of_request? {q : Request} (h : s.request? = some q) :
    ∃ next, s.call = some (.ask q next) := by
  unfold request? at h
  split at h
  · rename_i q' next hcall
    obtain rfl := Option.some.inj h
    exact ⟨next, hcall⟩
  · exact absurd h (by simp)

include hl in
/-- **Every allowed move keeps upkeep sound.** -/
theorem Sound.next (hfits : ∀ w ∈ aim.wanted, w.Fits) (h : Sound aim original s added) (m : Move)
    (ha : allows aim s m = true) :
    Sound aim original (Upkeep.next aim s m) (added ++ gains aim s m) := by
  cases m with
  | begin => exact ⟨(List.append_nil added).symm ▸ h.holds, .listing rfl rfl rfl⟩
  | grant r id =>
    cases hq : s.request? with
    | none => simp [allows, hq] at ha
    | some q =>
      obtain ⟨next, hcall⟩ := call_of_request? hq
      have hopen := h.stage.openRequest hl hcall
      have hgrants : s.shelf.grants aim.context q id (.ok r) = true := by simpa [allows, hq] using ha
      have hserved : s.served aim.context id = s.shelf.serve aim.context q id := by simp [served, hq]
      have hgains : gains aim s (.grant r id) = Shelf.gained aim.context q id := by simp [gains, hq]
      refine ⟨?_, hopen.granted hfits h.holds hgrants hserved (by simp [Upkeep.next, answered, hcall]) rfl
        rfl⟩
      rw [hgains]
      show (s.served aim.context id).Holds aim original _
      rw [hserved]
      exact hopen.carriedOut h.holds fun hpost => Shelf.fresh_of_grants hpost hgrants
  | fail a carriedOut =>
    cases hq : s.request? with
    | none => simp [allows, hq] at ha
    | some q =>
      obtain ⟨next, hcall⟩ := call_of_request? hq
      have hopen := h.stage.openRequest hl hcall
      simp only [allows, hq, Bool.and_eq_true] at ha
      obtain ⟨e, he⟩ := hopen.ends_of_fails (h.stage.givesUp hcall) ha.1
      refine ⟨?_, .gaveUp e ?_ rfl (Nat.succ_le_of_lt hopen.asked_lt)⟩
      · cases carriedOut with
        | none => simpa [gains, hq, Upkeep.next] using h.holds
        | some id =>
          have hserved : s.served aim.context id = s.shelf.serve aim.context q id := by simp [served, hq]
          have hgains : gains aim s (.fail a (some id)) = Shelf.gained aim.context q id := by
            simp [gains, hq]
          rw [hgains]
          show (s.served aim.context id).Holds aim original _
          rw [hserved]
          refine hopen.carriedOut h.holds ?_
          intro hpost
          simpa [hpost] using ha.2
      · simp [Upkeep.next, answered, hcall, he]

/-! ## However often attempts fail -/

/-- **Mended**: what holds at every moment of repeated attempts. -/
structure Mended (aim : Aim) (original : Shelf) (s : Upkeep) (added : Shelf) : Prop where
  /-- The entries that were there at first and whose address is wanted are still there. -/
  kept : ∀ e ∈ original, e.2 ∈ aim.addresses → e ∈ s.shelf
  /-- Nothing else is there but what was there at first and what is wanted. -/
  bounded : ∀ a ∈ s.shelf.addresses, a ∈ original.addresses ∨ a ∈ aim.addresses
  /-- Over all attempts no address was added twice. -/
  added_once : added.addresses.Nodup
  /-- Only wanted addresses were added, and only those that were missing at first. -/
  added_missing : ∀ a ∈ added.addresses, a ∈ aim.addresses ∧ a ∉ original.addresses
  /-- No attempt goes on for ever. -/
  asked_le : s.asked ≤ bound aim original
  /-- An attempt one of whose requests has failed is over, with an error. -/
  gave_up : s.failed = true → ∃ e, s.call = some (.done (.error e))
  /-- An attempt that is over and none of whose requests has failed is a success, and exactly the wanted
  addresses are there. -/
  mended : ∀ result, s.call = some (.done result) → s.failed = false →
    (∃ changes, result = .ok changes) ∧ ∀ a, a ∈ s.shelf.addresses ↔ a ∈ aim.addresses

include hl in
/-- An attempt that is over without a failure has nothing left to do. -/
theorem Stage.mended (h : Stage aim original s) {result : Except Error Changes}
    (hcall : s.call = some (.done result)) (hfailed : s.failed = false) :
    (∃ changes, result = .ok changes) ∧ ∀ a, a ∈ s.shelf.addresses ↔ a ∈ aim.addresses := by
  cases h with
  | unbegun hnone => exact absurd (hnone.symm.trans hcall) (by simp)
  | gaveUp e _ htrue => exact absurd (hfailed.symm.trans htrue) Bool.false_ne_true
  | listing hlisting =>
    have hattempt : aim.attempt = .done result := Option.some.inj (hlisting.symm.trans hcall)
    obtain ⟨next, hask, -⟩ := Client.update_lists hl aim.wanted
    exact absurd (hattempt.symm.trans hask) (by simp)
  | writing posts deletions changes hcall' hwriting =>
    have hdone : aim.client.writing aim.context aim.upstream posts deletions changes = .done result :=
      Option.some.inj (hcall'.symm.trans hcall)
    cases posts with
    | cons p posts =>
      obtain ⟨next, hask, -⟩ := Client.writing_post hl p posts deletions changes
      exact absurd (hdone.symm.trans hask) (by simp)
    | nil =>
      cases deletions with
      | cons d deletions =>
        obtain ⟨next, hask, -⟩ := Client.writing_delete hl d deletions changes
        exact absurd (hdone.symm.trans hask) (by simp)
      | nil => exact ⟨⟨changes, (Call.done.inj hdone).symm⟩, hwriting.owes.addresses_iff⟩

include hl in
theorem Sound.mended (h : Sound aim original s added) : Mended aim original s added where
  kept e he hwanted := by
    have hmem : e ∈ s.shelf.filter aim.wants := by
      rw [h.holds.wanted]
      exact List.mem_append_left _ (List.mem_filter.mpr ⟨he, by simpa [Aim.wants] using hwanted⟩)
    exact (List.mem_filter.mp hmem).1
  bounded a ha := by
    obtain ⟨e, he, rfl⟩ := List.mem_map.mp ha
    rcases h.holds.mem_or_mem he with horiginal | hadded
    · exact .inl (List.mem_map_of_mem horiginal)
    · exact .inr (h.holds.added_missing e.2 (List.mem_map_of_mem hadded)).1
  added_once := h.holds.added_once
  added_missing := h.holds.added_missing
  asked_le := by
    cases h.stage with
    | unbegun _ _ hasked => exact hasked ▸ Nat.zero_le _
    | listing _ _ hasked => exact hasked ▸ Nat.zero_le _
    | writing posts deletions changes _ hwriting =>
      have hle := hwriting.asked_le
      omega
    | gaveUp e _ _ hasked => exact hasked
  gave_up hfailed := by
    cases h.stage with
    | unbegun _ hnot => exact absurd (hnot.symm.trans hfailed) Bool.false_ne_true
    | listing _ hnot => exact absurd (hnot.symm.trans hfailed) Bool.false_ne_true
    | writing posts deletions changes _ hwriting =>
      exact absurd (hwriting.not_failed.symm.trans hfailed) Bool.false_ne_true
    | gaveUp e hcall => exact ⟨e, hcall⟩
  mended _ hcall hfailed := h.stage.mended hl hcall hfailed

/-- **Attempts mend what failed ones leave.** Whatever entries an upstream has, whatever entries are wanted,
and however often and wherever attempts fail, whether or not the server has carried the failing request out:
wanted entries stay, nothing unwanted comes, each missing address comes once, and an attempt without a
failure leaves exactly the wanted addresses. -/
theorem run_mends (aim : Aim) (hfits : ∀ w ∈ aim.wanted, w.Fits) (l : Location)
    (hl : aim.client.serversAt aim.context aim.upstream none = .ok l) (original : Shelf)
    (hids : original.ids.Nodup) (ms : List Move)
    (hlegal : (machine aim).legal { shelf := original } ms = true) :
    Mended aim original ((machine aim).run { shelf := original } ms)
      (Upkeep.added aim { shelf := original } ms) := by
  have hstart : Sound aim original { shelf := original } [] := ⟨.refl hids, .unbegun rfl rfl rfl⟩
  exact ((machine aim).log_keeps (P := Sound aim original)
    (fun s added m h ha => h.next hl hfits m ha) hstart hlegal).mended hl

/-- Two addresses are wanted, one of them with a weight. -/
def balanced : Aim where
  client := .new "http://lb"
  context := .http
  upstream := "web"
  wanted := [{ server := "10.0.0.1:80", weight := some 5 }, { server := "10.0.0.2:80" }]

theorem fits_balanced : ∀ w ∈ balanced.wanted, w.Fits := by
  intro w hw
  simp only [balanced, List.mem_cons, List.not_mem_nil, or_false] at hw
  rcases hw with rfl | rfl
  · exact ⟨by simp, by simp [Json.FitsInt64], by simp⟩
  · exact ⟨by simp, by simp, by simp⟩

/-- One of them is there at first, and another address twice. -/
def unbalanced : Shelf :=
  [(1, "10.0.0.9:80"), (2, "10.0.0.1:80"), (3, "10.0.0.9:80")]

/-- A list of entries. -/
def shows (shelf : Shelf) : Response :=
  ⟨200, (Json.Value.array (shelf.map fun e =>
    Entry.toJson .http { id := some e.1, server := e.2 })).render⟩

/-- The first attempt posts, and its answer is lost; the second one deletes, and is refused although the entry
is gone; the third one finds that a single entry is left to be deleted. -/
def interrupted : List Move :=
  [.begin, .grant (shows unbalanced) 0, .fail (.error .badBody) (some 4),
    .begin, .grant (shows (unbalanced ++ [(4, "10.0.0.2:80")])) 0, .fail (.ok ⟨500, []⟩) (some 0),
    .begin, .grant (shows [(2, "10.0.0.1:80"), (3, "10.0.0.9:80"), (4, "10.0.0.2:80")]) 0,
    .grant ⟨200, []⟩ 0]

theorem run_mends_interrupted :
    (machine balanced).legal { shelf := unbalanced } interrupted = true ∧
      Mended balanced unbalanced ((machine balanced).run { shelf := unbalanced } interrupted)
        (Upkeep.added balanced { shelf := unbalanced } interrupted) :=
  have hplace : balanced.client.serversAt balanced.context balanced.upstream none = .ok
      { scheme := "http", host := some "lb", segments := ["8", "http", "upstreams", "web", "servers"] } := by
    decide +kernel
  have hlegal : (machine balanced).legal { shelf := unbalanced } interrupted = true := by decide +kernel
  ⟨hlegal, run_mends balanced fits_balanced _ hplace unbalanced (by decide) interrupted hlegal⟩

end Upkeep

end BorderSync.Border
