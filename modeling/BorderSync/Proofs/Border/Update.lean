/-
# BorderSync.Proofs.Border.Update -- what an update asks, request by request

An update asks for the entries of its upstream, posts what is missing and deletes what is not wanted. As
long as every request is granted, each answer leads to the rest of the work, and what is left after the
list makes up the wanted addresses together with what the server holds.
-/
import BorderSync.Border.Dispatch
import BorderSync.Proofs.Border.Server

namespace BorderSync.Border

open Endpoint (Location)

/-! ## Granted requests -/

namespace Call

variable {ρ σ α : Type}

/-- **Asks**: the conversation asks a request, and goes on when that is granted. -/
def Asks (c : Call ρ) (q : Request) (after : Response → Call ρ) : Prop :=
  ∃ next, c = .ask q next ∧ ∀ r, r.isSuccess = true → next (.ok r) = after r

namespace Asks

variable {c : Call ρ} {q : Request} {after : Response → Call ρ}

theorem andThen (h : c.Asks q after) (f : ρ → Call σ) :
    (c.andThen f).Asks q fun r => (after r).andThen f := by
  obtain ⟨next, rfl, hnext⟩ := h
  exact ⟨fun a => (next a).andThen f, rfl, fun r hr => congrArg (Call.andThen · f) (hnext r hr)⟩

theorem map (h : c.Asks q after) (f : ρ → σ) : (c.map f).Asks q fun r => (after r).map f :=
  h.andThen _

theorem onSuccess {c : Call (Except Error ρ)} {after : Response → Call (Except Error ρ)}
    (h : c.Asks q after) (f : ρ → Call (Except Error σ)) :
    (c.onSuccess f).Asks q fun r => (after r).onSuccess f :=
  h.andThen _

/-- The first of several conversations is a single request. -/
theorem each {f : α → Call (Except Error Unit)} {a : α}
    (h : (f a).Asks q fun _ => .done (.ok ())) (rest : List α) :
    (each f (a :: rest)).Asks q fun _ => each f rest :=
  h.onSuccess _

end Asks

end Call

namespace Client

theorem granted_asks (q : Request) : (granted q).Asks q fun r => .done (.ok r) :=
  ⟨_, rfl, fun _ hr => if_pos hr⟩

/-- What is left of an update once the entries are listed. -/
def writing (c : Client) (context : Context) (upstream : String) (posts : List Entry)
    (deletions : Shelf) (changes : Changes) : Call (Except Error Changes) :=
  (Call.each (c.post context upstream) posts).onSuccess fun _ =>
    (Call.each (fun r => c.delete context upstream r.1) deletions).onSuccess fun _ =>
      .done (.ok changes)

variable {c : Client} {context : Context} {upstream : String} {l : Location}
  (hl : c.serversAt context upstream none = .ok l)

include hl

theorem list_asks : (c.list context upstream).Asks { method := .get, location := l } fun r =>
    match Entry.decodeList? context r.body with
    | some entries => .done (.ok entries)
    | none => .done (.error (.transport .badBody)) := by
  unfold list
  rw [hl]
  exact (granted_asks _).onSuccess _

theorem post_asks (e : Entry) : (c.post context upstream e).Asks
    { method := .post, location := l, body := some (e.encode context) }
    fun _ => .done (.ok ()) := by
  unfold post
  rw [hl]
  exact (granted_asks _).onSuccess _

theorem delete_asks (id : Int) : (c.delete context upstream id).Asks
    { method := .delete, location := { l with segments := l.segments ++ [toString id] } }
    fun _ => .done (.ok ()) := by
  unfold delete
  rw [serversAt_entry, hl]
  exact (granted_asks _).onSuccess _

/-- **An update lists first.** -/
theorem update_lists (wanted : List Entry) : ∃ next,
    c.update context upstream wanted = .ask { method := .get, location := l } next ∧
      ∀ r listed, r.isSuccess = true → Entry.decodeList? context r.body = some listed →
        next (.ok r) = c.writing context upstream (Reconcile.additions listed wanted)
          (Reconcile.removals listed wanted)
          ⟨(Reconcile.additions listed wanted).map Entry.server,
            (Reconcile.removals listed wanted).map Prod.snd⟩ := by
  obtain ⟨next, hask, hnext⟩ := (list_asks hl).onSuccess fun listed =>
    c.writing context upstream (Reconcile.additions listed wanted)
      (Reconcile.removals listed wanted)
      ⟨(Reconcile.additions listed wanted).map Entry.server,
        (Reconcile.removals listed wanted).map Prod.snd⟩
  refine ⟨next, hask, fun r listed hr hlisted => ?_⟩
  rw [hnext r hr]
  simp only [hlisted]
  rfl

/-- Then it posts, one entry after the other. -/
theorem writing_post (p : Entry) (posts : List Entry) (deletions : Shelf) (changes : Changes) :
    (c.writing context upstream (p :: posts) deletions changes).Asks
      { method := .post, location := l, body := some (p.encode context) }
      fun _ => c.writing context upstream posts deletions changes :=
  ((post_asks hl p).each posts).onSuccess _

/-- Then it deletes. -/
theorem writing_delete (d : Int × String) (deletions : Shelf) (changes : Changes) :
    (c.writing context upstream [] (d :: deletions) changes).Asks
      { method := .delete, location := { l with segments := l.segments ++ [toString d.1] } }
      fun _ => c.writing context upstream [] deletions changes :=
  ((delete_asks hl d.1).each (f := fun r : Int × String => c.delete context upstream r.1)
    deletions).onSuccess _

end Client

/-- How an update of an upstream has ended. -/
def concluded (context : Context) (u : Event.Update) : Except Error Changes → Outcome
  | .ok changes => ⟨.ok (), [updatedReport context u changes]⟩
  | .error e => ⟨.error e, []⟩

/-- An update that is no deletion is carried out as an update of its upstream. -/
theorem dispatch_update {context : Context} {u : Event.Update} (hkind : u.kind ≠ .deleted)
    (hcontext : Manager.context? u.clientType = some context) :
    (dispatch u).2 = ((Client.new u.host).update context u.upstream
      (u.servers.map fun s => { server := s })).map (concluded context u) := by
  have happly : applyUpdate (Client.new u.host) (.upstreams context) u
      = ((Client.new u.host).update context u.upstream
        (u.servers.map fun s => { server := s })).map (concluded context u) := by
    unfold applyUpdate
    simp only
    congr 1
  unfold dispatch
  simp only [hcontext]
  cases hk : u.kind with
  | deleted => exact absurd hk hkind
  | created => rw [happly]
  | updated => rw [happly]

/-! ## Where requests go -/

namespace Call

variable {ρ σ α : Type} {l : Location}

/-- **Stays**: whatever the answers are, every request is about one place. -/
def Stays (l : Location) : Call ρ → Prop
  | .done _ => True
  | .ask q next => q.place = l ∧ ∀ a, (next a).Stays l

/-- **Heeds**: whatever the answers are, nothing is written to a place before it was listed. -/
def Heeds (l : Location) : Call ρ → Prop
  | .done _ => True
  | .ask q next =>
    if q.writes then q.place ≠ l ∧ ∀ a, (next a).Heeds l else q.place = l ∨ ∀ a, (next a).Heeds l

theorem Stays.andThen {c : Call ρ} {f : ρ → Call σ} (hc : c.Stays l) (hf : ∀ r, (f r).Stays l) :
    (c.andThen f).Stays l := by
  induction c with
  | done r => exact hf r
  | ask q next ih => exact ⟨hc.1, fun a => ih a (hc.2 a)⟩

theorem Stays.onSuccess {c : Call (Except Error ρ)} {f : ρ → Call (Except Error σ)}
    (hc : c.Stays l) (hf : ∀ r, (f r).Stays l) : (c.onSuccess f).Stays l :=
  hc.andThen fun
    | .ok r => hf r
    | .error _ => trivial

theorem Stays.each {f : α → Call (Except Error Unit)} (hf : ∀ a, (f a).Stays l) (as : List α) :
    (Call.each f as).Stays l := by
  induction as with
  | nil => trivial
  | cons a as ih => exact (hf a).onSuccess fun _ => ih

/-- Who stays elsewhere writes nothing here. -/
theorem Stays.heeds {l' : Location} {c : Call ρ} (h : c.Stays l') (hne : l' ≠ l) : c.Heeds l := by
  induction c with
  | done r => trivial
  | ask q next ih =>
    unfold Heeds
    split
    · exact ⟨fun heq => hne (h.1.symm.trans heq), fun a => ih a (h.2 a)⟩
    · exact .inr fun a => ih a (h.2 a)

/-- A list, and then requests about the same place. -/
def ListsFirst (c : Call ρ) : Prop :=
  (∃ r, c = .done r) ∨
    ∃ l next, c = .ask { method := .get, location := l } next ∧ ∀ a, (next a).Stays l

theorem ListsFirst.map {c : Call ρ} (h : c.ListsFirst) (f : ρ → σ) : (c.map f).ListsFirst := by
  rcases h with ⟨r, rfl⟩ | ⟨l, next, rfl, hnext⟩
  · exact .inl ⟨f r, rfl⟩
  · exact .inr ⟨l, _, rfl, fun a => (hnext a).andThen fun _ => trivial⟩

/-- A conversation that lists first heeds every place. -/
theorem ListsFirst.heeds {c : Call ρ} (h : c.ListsFirst) (l : Location) : c.Heeds l := by
  rcases h with ⟨r, rfl⟩ | ⟨l', next, rfl, hnext⟩
  · trivial
  · by_cases hl : l' = l
    · exact .inl hl
    · exact .inr fun a => (hnext a).heeds hl

end Call

namespace Client

variable {σ : Type} {c : Client} {context : Context} {upstream : String}

theorem granted_stays {q : Request} {l : Location} (h : q.place = l) : (granted q).Stays l := by
  refine ⟨h, fun a => ?_⟩
  cases a with
  | error fault => trivial
  | ok r =>
    show Call.Stays l (if r.isSuccess then _ else _)
    split <;> trivial

theorem post_stays {l : Location} (hl : c.serversAt context upstream none = .ok l) (e : Entry) :
    (c.post context upstream e).Stays l := by
  unfold post
  rw [hl]
  exact (granted_stays (q := { method := .post, location := l, body := some (e.encode context) })
    rfl).onSuccess fun _ => trivial

theorem delete_stays {l : Location} (hl : c.serversAt context upstream none = .ok l) (id : Int) :
    (c.delete context upstream id).Stays l := by
  unfold delete
  rw [serversAt_entry, hl]
  refine (granted_stays ?_).onSuccess fun _ => trivial
  simp [Request.place]

/-- What follows a list, if it stays at the place that was listed. -/
theorem list_onSuccess {f : List Entry → Call (Except Error σ)}
    (hf : ∀ l, c.serversAt context upstream none = .ok l → ∀ entries, (f entries).Stays l) :
    ((c.list context upstream).onSuccess f).ListsFirst := by
  cases hl : c.serversAt context upstream none with
  | error e =>
    refine .inl ⟨.error e, ?_⟩
    unfold list
    rw [hl]
    rfl
  | ok l =>
    obtain ⟨next, hask, -⟩ := (list_asks hl).onSuccess f
    have hlist : (c.list context upstream).Stays l := by
      unfold list
      rw [hl]
      refine (granted_stays (q := { method := .get, location := l }) rfl).onSuccess ?_
      intro r
      split <;> trivial
    have hstays : ((c.list context upstream).onSuccess f).Stays l := hlist.onSuccess (hf l hl)
    rw [hask] at hstays ⊢
    exact .inr ⟨l, next, rfl, hstays.2⟩

/-- An update stays at its upstream. -/
theorem update_listsFirst (wanted : List Entry) : (c.update context upstream wanted).ListsFirst :=
  list_onSuccess fun _ hl _ =>
    (Call.Stays.each (post_stays hl) _).onSuccess fun _ =>
      (Call.Stays.each (fun d : Int × String => delete_stays hl d.1) _).onSuccess fun _ => trivial

/-- So does the removal of one server. -/
theorem remove_listsFirst (server : String) : (c.remove context upstream server).ListsFirst :=
  list_onSuccess fun _ hl entries => by
    split
    · trivial
    · exact delete_stays hl _

end Client

/-- **Nobody writes before listing**, whatever kind of update it is. -/
theorem dispatch_listsFirst (u : Event.Update) : (dispatch u).2.ListsFirst := by
  have happly : ∀ m, (applyUpdate (Client.new u.host) m u).ListsFirst := by
    intro m
    cases m with
    | nothing => exact .inl ⟨_, rfl⟩
    | upstreams context => exact (Client.update_listsFirst _).map _
  have hdelete : ∀ m, (applyDelete (Client.new u.host) m u).ListsFirst := by
    intro m
    cases m with
    | nothing => exact .inl ⟨_, rfl⟩
    | upstreams context =>
      unfold applyDelete
      cases u.servers with
      | nil => exact .inl ⟨_, rfl⟩
      | cons server rest => exact (Client.remove_listsFirst server).map _
  unfold dispatch
  cases u.kind with
  | created => exact happly _
  | updated => exact happly _
  | deleted => exact hdelete _

/-! ## What is left after the list -/

namespace Reconcile

theorem mem_of_mem_firstOfEach {e : Entry} {es : List Entry} {seen : List String}
    (h : e ∈ firstOfEach seen es) : e ∈ es := by
  induction es generalizing seen with
  | nil => exact h
  | cons e' es ih =>
    unfold firstOfEach at h
    split at h
    · exact List.mem_cons_of_mem _ (ih h)
    · rcases List.mem_cons.mp h with rfl | h
      · exact List.mem_cons_self
      · exact List.mem_cons_of_mem _ (ih h)

/-- Every address that was not seen is kept once. -/
theorem server_mem_firstOfEach {e : Entry} {es : List Entry} {seen : List String} (h : e ∈ es)
    (hs : e.server ∉ seen) : ∃ e' ∈ firstOfEach seen es, e'.server = e.server := by
  induction es generalizing seen with
  | nil => exact absurd h List.not_mem_nil
  | cons f es ih =>
    unfold firstOfEach
    by_cases hf : f.server = e.server
    · rw [hf, if_neg (by simpa using hs)]
      exact ⟨f, List.mem_cons_self, hf⟩
    · have he : e ∈ es := (List.mem_cons.mp h).resolve_left fun heq => hf (by rw [heq])
      split
      · exact ih he hs
      · have hs' : e.server ∉ f.server :: seen := by
          simpa [hs] using fun heq : e.server = f.server => hf heq.symm
        obtain ⟨e', he', hserver⟩ := ih he hs'
        exact ⟨e', List.mem_cons_of_mem _ he', hserver⟩

/-- The entries of a list are those of a shelf. -/
def Shows (listed : List Entry) (shelf : Shelf) : Prop :=
  listed.map (fun e => (e.id, e.server)) = shelf.map fun e => (some e.1, e.2)

/-- What is deleted is what is not wanted. -/
theorem removals_of_shows {listed : List Entry} {shelf : Shelf} (h : Shows listed shelf)
    (wanted : List String) :
    removals listed (wanted.map fun a => { server := a }) =
      shelf.filter fun e => !wanted.contains e.2 := by
  have hany : ∀ a : String, (wanted.map fun a => ({ server := a } : Entry)).any
      (fun w => w.server == a) = wanted.contains a := by
    intro a
    rw [List.any_map, List.contains_eq_any_beq]
    refine congrArg wanted.any (funext fun b => ?_)
    exact Bool.beq_comm
  unfold removals
  simp only [hany]
  unfold Shows at h
  -- the list and the shelf are gone through side by side
  induction listed generalizing shelf with
  | nil =>
    cases shelf with
    | nil => rfl
    | cons e shelf => simp at h
  | cons l listed ih =>
    cases shelf with
    | nil => simp at h
    | cons e shelf =>
      simp only [List.map_cons, List.cons.injEq, Prod.mk.injEq] at h
      obtain ⟨⟨hid, hserver⟩, hrest⟩ := h
      rw [List.filter_cons, List.filter_cons, hserver]
      split
      · rw [List.filterMap_cons, ih hrest, removable?, hid, hserver]
        rfl
      · exact ih hrest

/-- **After the list**, posts and deletions make up what is wanted. -/
theorem owes_of_shows {listed : List Entry} {shelf : Shelf} (h : Shows listed shelf)
    (hids : shelf.ids.Nodup) (wanted : List String) :
    shelf.Owes wanted (additions listed (wanted.map fun a => { server := a }))
      (removals listed (wanted.map fun a => { server := a })) := by
  refine ⟨hids, removals_of_shows h wanted, ?_, ?_⟩
  · intro p hp
    obtain ⟨e, he, rfl⟩ := List.mem_map.mp hp
    obtain ⟨a, ha, rfl⟩ := List.mem_map.mp (List.mem_filter.mp (mem_of_mem_firstOfEach he)).1
    exact ⟨a, ha, rfl⟩
  · intro a ha
    by_cases hthere : a ∈ shelf.addresses
    · exact .inl hthere
    · refine .inr ?_
      -- what is not on the shelf was not listed, so it is added, once
      have hunlisted : ∀ e ∈ listed, e.server ≠ a := by
        rintro e he rfl
        have hmem : (e.id, e.server) ∈ shelf.map fun e => (some e.1, e.2) :=
          (show _ = _ from h) ▸ List.mem_map_of_mem he
        obtain ⟨x, hx, heq⟩ := List.mem_map.mp hmem
        exact hthere (List.mem_map.mpr ⟨x, hx, congrArg Prod.snd heq⟩)
      have hwanted : ({ server := a } : Entry) ∈
          (wanted.map fun a => ({ server := a } : Entry)).filter
            fun w => !(listed.any fun l => l.server == w.server) := by
        refine List.mem_filter.mpr ⟨List.mem_map_of_mem ha, ?_⟩
        simpa using hunlisted
      obtain ⟨e, he, hserver⟩ := server_mem_firstOfEach hwanted List.not_mem_nil
      obtain ⟨b, -, rfl⟩ := List.mem_map.mp (List.mem_filter.mp (mem_of_mem_firstOfEach he)).1
      exact List.mem_map.mpr ⟨_, he, by rw [show b = a from hserver]; rfl⟩

end Reconcile

/-- A list that the server gives shows its shelf. -/
theorem Shelf.shows_of_isListedBy {context : Context} {shelf : Shelf} {body : List UInt8}
    (h : shelf.isListedBy context body = true) :
    ∃ listed, Entry.decodeList? context body = some listed ∧ Reconcile.Shows listed shelf := by
  have heq := beq_iff_eq.mp h
  obtain ⟨listed, hlisted, hshows⟩ := Option.map_eq_some_iff.mp heq
  exact ⟨listed, hlisted, hshows⟩

end BorderSync.Border
