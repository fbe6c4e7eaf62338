/-
# BorderSync.Proofs.Delivery.Attempts -- how the attempt at one update goes, among all others

An update in hand is first about to list its upstream, then about to post and delete, then settled. This
module follows one update and the place of its upstream: whatever move comes, it leaves both alone, or it is
a step of this attempt, or someone else writes to the place.
-/
import BorderSync.Proofs.Delivery.Steps

namespace BorderSync

open Border Event
open Endpoint (Location)

/-! ## Steps of one attempt -/

namespace Stage

/-- What is left of an attempt once the entries are listed. -/
def working (context : Context) (u : Update) (posts : List Border.Entry) (deletions : Shelf)
    (changes : Changes) : Stage :=
  .asking (((Client.new u.host).writing context u.upstream posts deletions changes).map
    (concluded context u))

/-- **On track**: the stages through which the attempt at an update goes when requests are granted. -/
inductive OnTrack (context : Context) (u : Update) : Option Stage → Prop
  | away : OnTrack context u none
  | opening : OnTrack context u (some (.opening u))
  | working (posts : List Border.Entry) (deletions : Shelf) (changes : Changes) :
    OnTrack context u (some (.working context u posts deletions changes))
  | settled : OnTrack context u (some .settled)

variable {context : Context} {u : Update} {l : Location} {posts : List Border.Entry}
  {deletions : Shelf} {changes : Changes}

/-- An attempt begins with a list; afterwards posts and deletions are left that make up what is
wanted. -/
theorem opening_lists (hkind : u.kind ≠ .deleted)
    (hcontext : Manager.context? u.clientType = some context)
    (hl : (Client.new u.host).serversAt context u.upstream none = .ok l) :
    ∃ next, opening u = .asking (.ask { method := .get, location := l } next) ∧
      ∀ (r : Response) (shelf : Shelf), r.isSuccess = true →
        shelf.isListedBy context r.body = true → shelf.ids.Nodup →
          ∃ posts deletions changes, .asking (next (.ok r)) = working context u posts deletions changes ∧
            shelf.Owes u.servers posts deletions := by
  obtain ⟨next, hask, hnext⟩ := Client.update_lists hl (u.servers.map fun s => { server := s })
  refine ⟨fun a => (next a).map (concluded context u), ?_, ?_⟩
  · unfold opening
    rw [dispatch_update hkind hcontext, hask]
    rfl
  · intro r shelf hr hbody hids
    obtain ⟨listed, hlisted, hshows⟩ := Shelf.shows_of_isListedBy hbody
    have hwriting := hnext r listed hr hlisted
    exact ⟨_, _, _, congrArg (fun c => Stage.asking (Call.map (concluded context u) c)) hwriting,
      Reconcile.owes_of_shows hshows hids u.servers⟩

/-- The next request after the list writes, and what is left afterwards makes up what is wanted. -/
theorem working_writes (hl : (Client.new u.host).serversAt context u.upstream none = .ok l)
    {q : Request} {next : Answer → Call Outcome}
    (h : working context u posts deletions changes = .asking (.ask q next)) :
    q.place = l ∧ q.writes = true ∧ ∀ r, r.isSuccess = true →
      ∃ posts' deletions', .asking (next (.ok r)) = working context u posts' deletions' changes ∧
        ∀ (shelf : Shelf) (id : Int), shelf.grants context q id (.ok r) = true →
          shelf.Owes u.servers posts deletions →
            (shelf.serve context q id).Owes u.servers posts' deletions' := by
  unfold working at h
  have hcall := Stage.asking.inj h
  -- all posts come before the first deletion
  cases posts with
  | cons p posts =>
    obtain ⟨next', hask, hnext'⟩ := (Client.writing_post hl p posts deletions changes).map
      (concluded context u)
    obtain ⟨rfl, rfl⟩ := Call.ask.inj (hcall.symm.trans hask)
    refine ⟨rfl, rfl, fun r hr => ⟨posts, deletions, ?_, ?_⟩⟩
    · rw [hnext' r hr]
      rfl
    · exact fun shelf id ha howes => howes.post rfl rfl ha
  | nil =>
    cases deletions with
    | cons d deletions =>
      obtain ⟨next', hask, hnext'⟩ := (Client.writing_delete hl d deletions changes).map
        (concluded context u)
      obtain ⟨rfl, rfl⟩ := Call.ask.inj (hcall.symm.trans hask)
      refine ⟨?_, rfl, fun r hr => ⟨[], deletions, ?_, ?_⟩⟩
      · simp [Request.place]
      · rw [hnext' r hr]
        rfl
      · exact fun shelf id ha howes => howes.delete rfl (by simp) id
    | nil => exact absurd hcall (by simp [Client.writing, Call.each, Call.onSuccess, Call.andThen, Call.map])

/-- When nothing is left to ask, nothing is left to be done. -/
theorem working_done (hl : (Client.new u.host).serversAt context u.upstream none = .ok l)
    {o : Outcome} (h : working context u posts deletions changes = .asking (.done o)) :
    posts = [] ∧ deletions = [] ∧ o.result = .ok () := by
  unfold working at h
  have hcall := Stage.asking.inj h
  cases posts with
  | cons p posts =>
    obtain ⟨next, hask, -⟩ := (Client.writing_post hl p posts deletions changes).map
      (concluded context u)
    exact absurd (hcall.symm.trans hask) (by simp)
  | nil =>
    cases deletions with
    | cons d deletions =>
      obtain ⟨next, hask, -⟩ := (Client.writing_delete hl d deletions changes).map
        (concluded context u)
      exact absurd (hcall.symm.trans hask) (by simp)
    | nil =>
      refine ⟨rfl, rfl, ?_⟩
      have ho : concluded context u (.ok changes) = o := Call.done.inj hcall
      rw [← ho]
      rfl

/-- What is left after the list is no list. -/
theorem opening_ne_working (hkind : u.kind ≠ .deleted)
    (hcontext : Manager.context? u.clientType = some context)
    (hl : (Client.new u.host).serversAt context u.upstream none = .ok l) :
    opening u ≠ working context u posts deletions changes := by
  intro h
  obtain ⟨next, hopening, -⟩ := opening_lists hkind hcontext hl
  have hwrites : false = true := (working_writes hl (h.symm.trans hopening)).2.1
  exact absurd hwrites Bool.false_ne_true

/-- On track, only what was left after a list comes to an end. -/
theorem working_of_done (hkind : u.kind ≠ .deleted)
    (hcontext : Manager.context? u.clientType = some context)
    (hl : (Client.new u.host).serversAt context u.upstream none = .ok l) {o : Outcome}
    (h : OnTrack context u (some (.asking (.done o)))) :
    ∃ posts deletions changes, asking (.done o) = working context u posts deletions changes := by
  generalize hstage : some (asking (.done o)) = stage at h
  cases h with
  | away => exact absurd hstage (by simp)
  | opening =>
    obtain ⟨next, hopening, -⟩ := opening_lists hkind hcontext hl
    exact absurd ((Option.some.inj hstage).trans hopening) (by simp)
  | working posts deletions changes => exact ⟨posts, deletions, changes, Option.some.inj hstage⟩
  | settled => exact absurd hstage (by simp)

end Stage

namespace Outbound

variable {settings : Settings} {s t : Outbound} {m : Move} {marks : List Mark}

/-! ## One attempt among all others -/

/-- The attempt has listed and is not settled. -/
def IsWorking (context : Context) (u : Update) (s : Outbound) : Prop :=
  ∃ posts deletions changes, s.stages.get? u = some (.working context u posts deletions changes)

/-- **Nearing**: what is left for an attempt makes up what is wanted. -/
def Nearing (context : Context) (u : Update) (l : Location) (s : Outbound) : Prop :=
  ∃ posts deletions changes,
    s.stages.get? u = some (.working context u posts deletions changes) ∧
      (s.shelf l).Owes u.servers posts deletions

/-- The servers hold what an update wants. -/
def Holds (u : Update) (l : Location) (s : Outbound) : Prop :=
  ∀ a, a ∈ (s.shelf l).addresses ↔ a ∈ u.servers

/-- **Effect** of a move on an update and on the place of its upstream. -/
inductive Effect (context : Context) (u : Update) (l : Location) (s t : Outbound) : List Mark → Prop
  /-- The move concerns neither. -/
  | aside {marks : List Mark} (hmarks : .listed u l ∉ marks)
    (hstage : t.stages.get? u = s.stages.get? u) (hshelf : t.shelf l = s.shelf l) :
    Effect context u l s t marks
  /-- The attempt at another update writes to the place. -/
  | foreign (w : Update) (hw : w ≠ u) (hstage : t.stages.get? u = s.stages.get? u) :
    Effect context u l s t [.wrote w l]
  | taken (hbefore : s.stages.get? u = none) (hafter : t.stages.get? u = some (.opening u))
    (hshelf : t.shelf l = s.shelf l) : Effect context u l s t []
  | listed (hbefore : s.stages.get? u = some (.opening u)) (hafter : t.Nearing context u l) :
    Effect context u l s t [.listed u l]
  | wrote (hbefore : s.IsWorking context u) (hafter : t.IsWorking context u)
    (hnearing : s.Nearing context u l → t.Nearing context u l) :
    Effect context u l s t [.wrote u l]
  | finished (hbefore : s.IsWorking context u) (hafter : t.stages.get? u = some .settled)
    (hholds : s.Nearing context u l → t.Holds u l) : Effect context u l s t []
  | gone (hbefore : s.stages.get? u = some .settled) (hafter : t.stages.get? u = none)
    (hshelf : t.shelf l = s.shelf l) : Effect context u l s t []

section Following

variable {context : Context} {u : Update} {l : Location}

/-- The attempt at another update leaves a stage alone. -/
theorem get?_insert_of_ne (stages : Table Update Stage) {w : Update} (h : w ≠ u) (stage : Stage) :
    (stages.insert w stage).get? u = stages.get? u := by
  rw [Table.get?_insert, if_neg (by simpa using Ne.symm h)]

/-- An update stays on track. -/
theorem Effect.onTrack (h : Effect context u l s t marks)
    (ht : Stage.OnTrack context u (s.stages.get? u)) :
    Stage.OnTrack context u (t.stages.get? u) := by
  cases h with
  | aside hmarks hstage hshelf => exact hstage ▸ ht
  | foreign w hw hstage => exact hstage ▸ ht
  | taken hbefore hafter hshelf => exact hafter ▸ .opening
  | listed hbefore hafter =>
    obtain ⟨posts, deletions, changes, hstage, -⟩ := hafter
    exact hstage ▸ .working posts deletions changes
  | wrote hbefore hafter hnearing =>
    obtain ⟨posts, deletions, changes, hstage⟩ := hafter
    exact hstage ▸ .working posts deletions changes
  | finished hbefore hafter hholds => exact hafter ▸ .settled
  | gone hbefore hafter hshelf => exact hafter ▸ .away

variable (hkind : u.kind ≠ .deleted) (hcontext : Manager.context? u.clientType = some context)
  (hl : (Client.new u.host).serversAt context u.upstream none = .ok l)

/-- Another update is in hand, or goes on. -/
theorem effect_other {w : Update} (hwu : w ≠ u) {stage : Stage}
    (ht : t.stages = s.stages.insert w stage) (hshelf : t.shelf l = s.shelf l)
    (hmarks : .listed u l ∉ marks) : Effect context u l s t marks :=
  .aside hmarks (by rw [ht, get?_insert_of_ne _ hwu]) hshelf

/-- A worker takes an update. -/
theorem effect_take (h : s.Sound) {w : Update} {later : List Update}
    (hwaiting : s.floor.queue.waiting = w :: later) (ht : t.stages = s.stages.insert w (.opening w))
    (hshelf : t.shelf l = s.shelf l) : Effect context u l s t [] := by
  by_cases hwu : w = u
  · subst hwu
    -- what waits is in nobody's hand
    have hfree : s.floor.hands.contains w = false :=
      h.floor.in_hand w ▸ (h.floor.queue.of_first hwaiting).2
    have hnone : s.stages.get? w = none := by
      rw [← Option.not_isSome_iff_eq_none, h.in_hand, hfree]
      exact Bool.false_ne_true
    refine .taken hnone ?_ hshelf
    rw [ht, Table.get?_insert, if_pos BEq.rfl]
  · exact effect_other hwu ht hshelf List.not_mem_nil

include hkind hcontext hl

/-- A border server answers. -/
theorem effect_answer (h : s.Sound) (htrack : Stage.OnTrack context u (s.stages.get? u)) {w : Update}
    {q : Request} {after : Answer → Call Outcome} {r : Response} {id : Int}
    (hstage : s.stages.get? w = some (.asking (.ask q after))) (hr : r.isSuccess = true)
    (hgrants : (s.shelf q.place).grants (contextOf w) q id (.ok r) = true)
    (ht : t = { s with
      stages := s.stages.insert w (.asking (after (.ok r)))
      shelves := s.shelves.insert q.place ((s.shelf q.place).serve (contextOf w) q id) }) :
    Effect context u l s t [if q.writes then .wrote w q.place else .listed w q.place] := by
  subst ht
  by_cases hwu : w = u
  · subst hwu
    rw [show contextOf w = context by rw [contextOf, hcontext, Option.getD_some]] at hgrants ⊢
    have hafter : ∀ stage, (s.stages.insert w stage).get? w = some stage := fun stage => by
      rw [Table.get?_insert, if_pos BEq.rfl]
    -- the stage says which request was answered
    generalize hold : s.stages.get? w = old at htrack
    cases htrack with
    | away => exact absurd (hold.symm.trans hstage) (by simp)
    | settled => exact absurd (hold.symm.trans hstage) (by simp)
    | opening =>
      obtain ⟨next', hopening, hnext⟩ := Stage.opening_lists hkind hcontext hl
      obtain ⟨rfl, rfl⟩ := Call.ask.inj (Stage.asking.inj (hopening.symm.trans
        (Option.some.inj (hold.symm.trans hstage))))
      have hlists : (s.shelf l).isListedBy context r.body = true :=
        (Bool.and_eq_true_iff.mp hgrants).2
      obtain ⟨posts, deletions, changes, hworking, howes⟩ := hnext r (s.shelf l) hr hlists (h.ids_once l)
      refine .listed hold ⟨posts, deletions, changes, (hafter _).trans (congrArg some hworking), ?_⟩
      rw [shelf_insert, show Request.place { method := .get, location := l } = l from rfl, if_pos rfl,
        Shelf.serve_of_not_writes rfl]
      exact howes
    | working posts deletions changes =>
      obtain ⟨rfl, hwrites, hnext⟩ := Stage.working_writes hl
        (Option.some.inj (hold.symm.trans hstage))
      obtain ⟨posts', deletions', hworking, -⟩ := hnext r hr
      rw [if_pos hwrites]
      refine .wrote ⟨posts, deletions, changes, hold⟩
        ⟨posts', deletions', changes, (hafter _).trans (congrArg some hworking)⟩ ?_
      rintro ⟨posts, deletions, changes, hold, hbefore⟩
      obtain ⟨-, -, hnext⟩ := Stage.working_writes hl (Option.some.inj (hold.symm.trans hstage))
      obtain ⟨posts', deletions', hworking, howes⟩ := hnext r hr
      refine ⟨posts', deletions', changes, (hafter _).trans (congrArg some hworking), ?_⟩
      rw [shelf_insert, if_pos rfl]
      exact howes (s.shelf q.place) id hgrants hbefore
  · -- of what others do, only writes to the place matter
    by_cases hplace : q.place = l
    · cases hwrites : q.writes with
      | true =>
        rw [if_pos rfl, hplace]
        exact .foreign w hwu (get?_insert_of_ne _ hwu _)
      | false =>
        refine effect_other hwu rfl ?_ (by simp [Ne.symm hwu])
        rw [shelf_insert, Shelf.serve_of_not_writes hwrites, hplace, if_pos rfl]
    · refine effect_other hwu rfl ?_ ?_
      · rw [shelf_insert, if_neg (Ne.symm hplace)]
      · cases q.writes <;> simp [Ne.symm hwu]

/-- **What a step does** to an update on track and to the place of its upstream. -/
theorem effect (h : s.Sound) (htrack : Stage.OnTrack context u (s.stages.get? u))
    (hstep : Step settings s m t marks) : Effect context u l s t marks := by
  cases hstep with
  | translate cache c tokens made => exact .aside List.not_mem_nil rfl rfl
  | drop w r hhost => exact .aside List.not_mem_nil rfl rfl
  | schedule w r delay hhost => exact .aside List.not_mem_nil rfl rfl
  | land w hcoming => exact .aside List.not_mem_nil rfl rfl
  | rest => exact .aside List.not_mem_nil rfl rfl
  | take w later hwaiting hfree => exact effect_take h hwaiting rfl rfl
  | answer w q after r id hstage hr hgrants =>
    exact effect_answer hkind hcontext hl h htrack hstage hr hgrants rfl
  | settle w o hstage =>
    by_cases hwu : w = u
    · subst hwu
      obtain ⟨posts, deletions, changes, hworking⟩ :=
        Stage.working_of_done hkind hcontext hl (hstage ▸ htrack)
      refine .finished ⟨posts, deletions, changes, hstage.trans (congrArg some hworking)⟩ ?_ ?_
      · exact (Table.get?_insert _ _ _ _).trans (if_pos BEq.rfl)
      · rintro ⟨posts, deletions, changes, hold, howes⟩
        obtain ⟨rfl, rfl, -⟩ := Stage.working_done hl (Option.some.inj (hold.symm.trans hstage))
        exact howes.addresses_iff
    · exact effect_other hwu rfl rfl List.not_mem_nil
  | fail w o hstage hfailed wait =>
    by_cases hwu : w = u
    · subst hwu
      obtain ⟨posts, deletions, changes, hworking⟩ :=
        Stage.working_of_done hkind hcontext hl (hstage ▸ htrack)
      -- every request was granted
      exact absurd (Stage.working_done hl hworking.symm).2.2 hfailed
    · exact effect_other hwu rfl rfl List.not_mem_nil
  | readd w wait hstage =>
    by_cases hwu : w = u
    · subst hwu
      generalize hold : s.stages.get? w = old at htrack
      cases htrack with
      | away => exact absurd (hold.symm.trans hstage) (by simp)
      | opening => exact absurd (hold.symm.trans hstage) (by simp [Stage.opening])
      | working posts deletions changes =>
        exact absurd (hold.symm.trans hstage) (by simp [Stage.working])
      | settled => exact absurd (hold.symm.trans hstage) (by simp)
    · exact effect_other hwu rfl rfl List.not_mem_nil
  | done w hstage =>
    have herase := Table.get?_erase s.stages w u
    by_cases hwu : w = u
    · subst hwu
      exact .gone hstage (herase.trans (if_pos BEq.rfl)) rfl
    · exact .aside List.not_mem_nil (herase.trans (if_neg (by simpa using Ne.symm hwu))) rfl

end Following

end Outbound

end BorderSync
