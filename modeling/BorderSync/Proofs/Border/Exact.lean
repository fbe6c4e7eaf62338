/-
# BorderSync.Proofs.Border.Exact -- an update makes exactly the difference

What an update posts and deletes is told here by addresses: posted are the wanted ones that are not listed,
each once and in the order in which they first occur; deleted are the numbers of the listed entries that are
not wanted, in list order. On a server that grants everything, the upstream holds exactly the wanted
addresses afterwards, and an update that follows at once finds nothing to do.
-/
import BorderSync.Proofs.Border.Difference
import BorderSync.Proofs.Border.Served

namespace BorderSync.Border

open Endpoint (Location)

/-! ## The difference -/

namespace Reconcile

/-- The addresses that are wanted and not listed, each once, in order of first occurrence. -/
def missing (listed wanted : List String) : List String :=
  (wanted.filter fun a => !listed.contains a).eraseDups

/-- The listed entries whose address is not wanted. -/
def unwanted (listed : List Entry) (wanted : List String) : List Entry :=
  listed.filter fun e => !wanted.contains e.server

/-- An entry with an address is among entries that have the address. -/
theorem any_server (es : List Entry) (a : String) :
    (es.any fun e => e.server == a) = (es.map Entry.server).contains a := by
  rw [List.contains_eq_any_beq, List.any_map]
  refine congrArg es.any (funext fun e => ?_)
  exact Bool.beq_comm

/-- The first entry of each address has the addresses in order of first occurrence. -/
theorem servers_firstOfEach (seen : List String) (es : List Entry) :
    (firstOfEach seen es).map Entry.server = missing seen (es.map Entry.server) := by
  unfold missing
  induction es generalizing seen with
  | nil => rfl
  | cons e es ih =>
    rw [firstOfEach, List.map_cons, List.filter_cons]
    by_cases hseen : seen.contains e.server
    · rw [if_pos hseen, if_neg (by simpa using hseen)]
      exact ih seen
    · rw [if_neg hseen, if_pos (by simpa using hseen), List.map_cons, ih, List.eraseDups_cons,
        List.filter_filter]
      refine congrArg (e.server :: ·) (congrArg List.eraseDups (List.filter_congr ?_))
      intro a _
      rw [List.contains_cons, Bool.not_or]

/-- The first entry of an address is the first one. -/
theorem find?_of_mem_firstOfEach {seen : List String} {es : List Entry} {e : Entry}
    (he : e ∈ firstOfEach seen es) : es.find? (fun w => w.server == e.server) = some e := by
  induction es generalizing seen with
  | nil => exact absurd he List.not_mem_nil
  | cons f es ih =>
    unfold firstOfEach at he
    split at he
    · rename_i hseen
      have hne : e.server ≠ f.server := by
        intro heq
        exact (nodup_firstOfEach seen es).2 e he (heq ▸ by simpa using hseen)
      rw [List.find?_cons_of_neg (by simpa using hne.symm)]
      exact ih he
    · rcases List.mem_cons.mp he with rfl | he
      · exact List.find?_cons_of_pos (by simp)
      · have hne : e.server ≠ f.server := by
          intro heq
          exact (nodup_firstOfEach (f.server :: seen) es).2 e he (heq ▸ List.mem_cons_self)
        rw [List.find?_cons_of_neg (by simpa using hne.symm)]
        exact ih he

/-- **What is posted**: the missing addresses. -/
theorem servers_additions (listed wanted : List Entry) :
    (additions listed wanted).map Entry.server =
      missing (listed.map Entry.server) (wanted.map Entry.server) := by
  have hservers : (Entry.server ∘ withoutId : Entry → String) = Entry.server := rfl
  unfold additions
  simp only [any_server]
  rw [List.map_map, hservers, servers_firstOfEach]
  unfold missing
  rw [List.filter_eq_self.mpr (by simp), List.filter_map]
  rfl

/-- Each posted entry is the first wanted one with its address, without a number. -/
theorem first_of_mem_additions {listed wanted : List Entry} {p : Entry} (hp : p ∈ additions listed wanted) :
    ∃ w, wanted.find? (fun w => w.server == p.server) = some w ∧ p = { w with id := none } := by
  obtain ⟨w, hw, rfl⟩ := List.mem_map.mp hp
  refine ⟨w, ?_, rfl⟩
  have hfind := find?_of_mem_firstOfEach hw
  have hunlisted := (List.mem_filter.mp (mem_of_mem_firstOfEach hw)).2
  rw [List.find?_filter] at hfind
  refine Eq.trans ?_ hfind
  -- an entry with this address is not listed either
  congr 1
  funext v
  by_cases hv : v.server = w.server
  · simp only [hv, withoutId, hunlisted, true_and, Bool.decide_eq_true]
  · simp [hv, withoutId]

/-- **What is deleted**: the numbers of the entries that are not wanted. -/
theorem removals_eq (listed wanted : List Entry) :
    removals listed wanted = (unwanted listed (wanted.map Entry.server)).filterMap removable? := by
  unfold removals unwanted
  simp only [any_server]

theorem ids_removals (listed wanted : List Entry) :
    (removals listed wanted).map Prod.fst = (unwanted listed (wanted.map Entry.server)).filterMap Entry.id := by
  rw [removals_eq, List.map_filterMap]
  congr 1
  funext e
  cases h : e.id <;> simp [removable?, h]

theorem servers_removals (listed wanted : List Entry) : (removals listed wanted).map Prod.snd =
    ((unwanted listed (wanted.map Entry.server)).filter fun e => e.id.isSome).map Entry.server := by
  rw [removals_eq]
  induction unwanted listed (wanted.map Entry.server) with
  | nil => rfl
  | cons e es ih =>
    cases h : e.id with
    | none => simpa [removable?, h] using ih
    | some i => simpa [removable?, h] using ih

/-- The writes of an update, by addresses and numbers. -/
theorem writes_eq (context : Context) (l : Location) (listed wanted : List Entry) :
    writes context l listed wanted = (additions listed wanted).map (Request.postAt context l)
      ++ ((unwanted listed (wanted.map Entry.server)).filterMap Entry.id).map (Request.deleteAt l) := by
  unfold writes
  rw [← ids_removals, List.map_map]
  rfl

end Reconcile

/-- A member has its key. -/
theorem Entry.key_of_mem_member {α : Type} {key : String} {write : α → Json.Value} {o : Option α}
    {m : List UInt8 × Json.Value} (hm : m ∈ Entry.member key write o) : m.1 = Json.octets key := by
  cases o with
  | none => exact absurd hm List.not_mem_nil
  | some a => exact congrArg Prod.fst (List.mem_singleton.mp hm)

/-- An entry without a number is written without one. -/
theorem Entry.toJson_of_id_none (context : Context) {p : Entry} (hp : p.id = none) :
    ∃ members, p.toJson context = .object members ∧ ∀ m ∈ members, m.1 ≠ Json.octets "id" := by
  have hkeys : ∀ key ∈ ["server", "weight", "max_fails", "fail_timeout", "down"],
      Json.octets key ≠ Json.octets "id" := by
    decide
  refine ⟨_, rfl, ?_⟩
  intro m hm
  simp only [hp, Entry.member, List.nil_append, List.mem_append, List.mem_singleton] at hm
  obtain (((rfl | hweight) | hmaxFails) | hfailTimeout) | hdown := hm
  · exact hkeys "server" (by simp)
  · rw [Entry.key_of_mem_member hweight]
    exact hkeys "weight" (by simp)
  · rw [Entry.key_of_mem_member hmaxFails]
    exact hkeys "max_fails" (by simp)
  · cases context with
    | http =>
      rw [Entry.key_of_mem_member hfailTimeout]
      exact hkeys "fail_timeout" (by simp)
    | stream => exact absurd hfailTimeout List.not_mem_nil
  · rw [Entry.key_of_mem_member hdown]
    exact hkeys "down" (by simp)

/-! ## Scripts without a refusal -/

/-- **Makes the difference**: the requests and the changes of an update that is granted throughout. -/
structure MakesDifference (context : Context) (l : Location) (listed wanted : List Entry)
    (requests : List Request) (changes : Changes) : Prop where
  asked : ∃ posts : List Entry,
    requests = .listAt l :: (posts.map (Request.postAt context l)
      ++ ((Reconcile.unwanted listed (wanted.map Entry.server)).filterMap Entry.id).map (Request.deleteAt l)) ∧
    posts.map Entry.server = Reconcile.missing (listed.map Entry.server) (wanted.map Entry.server) ∧
    ∀ p ∈ posts,
      (∃ w, wanted.find? (fun w => w.server == p.server) = some w ∧ p = { w with id := none }) ∧
      ∃ members, p.toJson context = .object members ∧ ∀ m ∈ members, m.1 ≠ Json.octets "id"
  added : changes.added = Reconcile.missing (listed.map Entry.server) (wanted.map Entry.server)
  deleted : changes.deleted =
    ((Reconcile.unwanted listed (wanted.map Entry.server)).filter fun e => e.id.isSome).map Entry.server

theorem makesDifference_changes (context : Context) (l : Location) (listed wanted : List Entry) :
    MakesDifference context l listed wanted (.listAt l :: Reconcile.writes context l listed wanted)
      (Reconcile.changes listed wanted) where
  asked := by
    refine ⟨Reconcile.additions listed wanted, ?_, Reconcile.servers_additions listed wanted, ?_⟩
    · rw [Reconcile.writes_eq]
    · intro p hp
      obtain ⟨w, hw, rfl⟩ := Reconcile.first_of_mem_additions hp
      exact ⟨⟨w, hw, rfl⟩, Entry.toJson_of_id_none context rfl⟩
  added := Reconcile.servers_additions listed wanted
  deleted := Reconcile.servers_removals listed wanted

section Update

variable {c : Client} {context : Context} {upstream : String} {l : Location}
  (hl : c.serversAt context upstream none = .ok l) (wanted : List Entry)

include hl

/-- **Without a refusal**, an update makes the difference between what is listed and what is wanted. -/
theorem update_granted {r : Response} {listed : List Entry} (hr : r.isSuccess = true)
    (hread : Entry.decodeList? context r.body = some listed) {rest : List Answer}
    (hgranted : ∀ a ∈ rest, refuses a = false)
    (henough : (Reconcile.missing (listed.map Entry.server) (wanted.map Entry.server)).length
      + ((Reconcile.unwanted listed (wanted.map Entry.server)).filterMap Entry.id).length ≤ rest.length) :
    ∃ changes, ((c.update context upstream wanted).hear (.ok r :: rest)).result? = some (.ok changes) ∧
      MakesDifference context l listed wanted ((c.update context upstream wanted).requests (.ok r :: rest))
        changes := by
  have hlisting : listing context (.ok r) = .ok listed := by simp [listing, hr, hread]
  have hlength : (Reconcile.writes context l listed wanted).length ≤ grantedRun rest := by
    rw [Reconcile.writes_eq, List.length_append, List.length_map, List.length_map,
      grantedRun_of_forall hgranted, ← List.length_map (f := Entry.server), Reconcile.servers_additions]
    exact henough
  refine ⟨Reconcile.changes listed wanted, ?_, ?_⟩
  · rw [Client.update_eq hl, Call.hear, hlisting]
    simp only [Call.onSuccess_done, Call.result?_hear_map, Call.result?_inTurn]
    rw [if_pos hlength]
    rfl
  · rw [Client.update_eq hl, Call.requests, hlisting]
    simp only [Call.onSuccess_done, Call.requests_map, Call.requests_inTurn]
    rw [List.take_of_length_le (Nat.le_succ_of_le hlength)]
    exact makesDifference_changes context l listed wanted

end Update

/-! ## A server that grants everything -/

namespace Reconcile

/-- What is listed has the addresses of the shelf. -/
theorem Shows.servers {listed : List Entry} {shelf : Shelf} (h : Shows listed shelf) :
    listed.map Entry.server = shelf.addresses := by
  have hsnd := congrArg (List.map Prod.snd) (show _ = _ from h)
  rwa [List.map_map, List.map_map] at hsnd

/-- The numbers of the listed entries that are not wanted are those on the shelf. -/
theorem Shows.ids_unwanted {listed : List Entry} {shelf : Shelf} (h : Shows listed shelf)
    (wanted : List Entry) :
    (unwanted listed (wanted.map Entry.server)).filterMap Entry.id =
      Shelf.ids (shelf.filter fun e => !(wanted.map Entry.server).contains e.2) := by
  have hbare : (wanted.map Entry.server).map (fun a => ({ server := a } : Entry)) = wanted.map Entry.bare := by
    rw [List.map_map]
    rfl
  have hremovals := removals_of_shows h (wanted.map Entry.server)
  rw [hbare, removals_bare] at hremovals
  rw [← ids_removals, hremovals]
  rfl

/-- With all wanted addresses there, nothing is missing. -/
theorem missing_eq_nil {listed wanted : List String} (h : ∀ a ∈ wanted, a ∈ listed) :
    missing listed wanted = [] := by
  have hnone : wanted.filter (fun a => !listed.contains a) = [] := by
    rw [List.filter_eq_nil_iff]
    intro a ha
    simpa using h a ha
  unfold missing
  rw [hnone]
  rfl

theorem mem_missing {listed wanted : List String} {a : String} :
    a ∈ missing listed wanted ↔ a ∈ wanted ∧ a ∉ listed := by
  unfold missing
  rw [List.mem_eraseDups, List.mem_filter]
  simp

end Reconcile

/-- Taking out the entries of a shelf that are not wanted leaves the others, and new ones. -/
theorem Shelf.filter_append_news {shelf news : Shelf} (hids : (shelf ++ news : Shelf).ids.Nodup)
    (wanted : List String) :
    (shelf ++ news).filter (fun e => !(Shelf.ids (shelf.filter fun e => !wanted.contains e.2)).contains e.1) =
      shelf.filter (fun e => wanted.contains e.2) ++ news := by
  unfold ids at hids ⊢
  rw [List.map_append, List.nodup_append] at hids
  obtain ⟨hshelf, -, hapart⟩ := hids
  rw [List.filter_append]
  congr 1
  · refine List.filter_congr ?_
    intro e he
    -- an entry with the number of one that is taken out is that one
    have hsame : ∀ e' ∈ shelf, e'.1 = e.1 → e' = e := fun e' he' hid =>
      List.inj_on_of_nodup_map hshelf he' he hid
    rw [Bool.eq_iff_iff, Bool.not_eq_true', ← Bool.not_eq_true, not_iff_comm]
    simp only [List.contains_iff_mem, List.mem_map, List.mem_filter, Bool.not_eq_true']
    constructor
    · intro hunwanted
      exact ⟨e, ⟨he, by simpa using hunwanted⟩, rfl⟩
    · rintro ⟨e', ⟨he', hunwanted⟩, hid⟩
      rw [hsame e' he' hid] at hunwanted
      simpa using hunwanted
  · rw [List.filter_eq_self]
    intro e he
    rw [Bool.not_eq_true', ← Bool.not_eq_true, List.contains_iff_mem]
    intro hmem
    obtain ⟨e', he', hid⟩ := List.mem_map.mp hmem
    exact hapart e'.1 (List.mem_map_of_mem (List.mem_filter.mp he').1) e.1 (List.mem_map_of_mem he) hid

/-- **Settled**: what a server that grants everything holds after an update, and what was asked. -/
structure Settled (context : Context) (l : Location) (wanted : List Entry) (shelf : Shelf)
    (requests : List Request) (shelf' : Shelf) (result : Except Error Changes) : Prop where
  /-- The update makes the difference between the shelf and what is wanted. -/
  made : ∃ listed changes, Reconcile.Shows listed shelf ∧ result = .ok changes ∧
    MakesDifference context l listed wanted requests changes
  /-- Wanted entries stay as they are; what is missing comes after them. -/
  entries : ∃ news : Shelf,
    shelf' = (shelf.filter fun e => (wanted.map Entry.server).contains e.2) ++ news ∧
      news.addresses = Reconcile.missing shelf.addresses (wanted.map Entry.server)
  ids_once : shelf'.ids.Nodup

section Server

variable {c : Client} {context : Context} {upstream : String} {l : Location}
  (hl : c.serversAt context upstream none = .ok l) {wanted : List Entry} (hfits : ∀ w ∈ wanted, w.Fits)

include hl hfits

/-- **An update that is served** leaves the wanted entries and the missing addresses. -/
theorem settled_of_served {shelf shelf' : Shelf} (hids : shelf.ids.Nodup) {requests : List Request}
    {result : Except Error Changes}
    (h : Served context shelf (c.update context upstream wanted) requests shelf' result) :
    Settled context l wanted shelf requests shelf' result := by
  rw [Client.update_eq hl] at h
  cases h with
  | ask a id hgranted hrest =>
    obtain ⟨listed, hlisting, hshows⟩ := listing_of_grants rfl hgranted
    have hposts : ∀ p ∈ Reconcile.additions listed wanted, p.Fits := by
      intro p hp
      obtain ⟨⟨w, hw, rfl⟩, -⟩ := Reconcile.of_mem_additions hp
      exact ⟨by simp [Reconcile.withoutId], (hfits w hw).weight, (hfits w hw).maxFails⟩
    simp only [hlisting] at hrest
    rw [Reconcile.writes_eq] at hrest
    obtain ⟨rfl, rfl, news, hnews, hnodup, hshelf⟩ := hrest.writes hposts hids
    rw [hshows.ids_unwanted, Shelf.filter_append_news hnodup] at hshelf
    refine ⟨⟨listed, _, hshows, rfl, ?_⟩, ⟨news, hshelf, ?_⟩, ?_⟩
    · rw [← Reconcile.writes_eq]
      exact makesDifference_changes context l listed wanted
    · rw [hnews, Reconcile.servers_additions, hshows.servers]
    · rw [hshelf]
      refine hnodup.sublist (List.Sublist.map Prod.fst ?_)
      exact List.filter_sublist.append (List.Sublist.refl news)

end Server

namespace Settled

variable {context : Context} {l : Location} {wanted : List Entry} {shelf shelf' : Shelf}
  {requests : List Request} {result : Except Error Changes}
  (h : Settled context l wanted shelf requests shelf' result)

include h

/-- Afterwards exactly the wanted addresses are there. -/
theorem addresses_iff (a : String) : a ∈ shelf'.addresses ↔ a ∈ wanted.map Entry.server := by
  obtain ⟨news, rfl, hnews⟩ := h.entries
  unfold Shelf.addresses at hnews ⊢
  rw [List.map_append, List.mem_append, hnews, Reconcile.mem_missing]
  constructor
  · rintro (hkept | ⟨hwanted, -⟩)
    · obtain ⟨e, he, rfl⟩ := List.mem_map.mp hkept
      simpa using (List.mem_filter.mp he).2
    · exact hwanted
  · intro hwanted
    by_cases hthere : a ∈ shelf.map Prod.snd
    · obtain ⟨e, he, rfl⟩ := List.mem_map.mp hthere
      exact .inl (List.mem_map_of_mem (List.mem_filter.mpr ⟨he, by simpa using hwanted⟩))
    · exact .inr ⟨hwanted, hthere⟩

/-- Where nothing is missing and nothing unwanted is there, the update only lists. -/
theorem of_addresses_iff (hexact : ∀ a, a ∈ shelf.addresses ↔ a ∈ wanted.map Entry.server) :
    requests = [.listAt l] ∧ shelf' = shelf ∧ result = .ok {} := by
  obtain ⟨listed, changes, hshows, rfl, hmade⟩ := h.made
  obtain ⟨news, rfl, hnews⟩ := h.entries
  have hmissing : Reconcile.missing shelf.addresses (wanted.map Entry.server) = [] :=
    Reconcile.missing_eq_nil fun a ha => (hexact a).mpr ha
  have hunwanted : Reconcile.unwanted listed (wanted.map Entry.server) = [] := by
    unfold Reconcile.unwanted
    rw [List.filter_eq_nil_iff]
    intro e he
    have hthere : e.server ∈ shelf.addresses := hshows.servers ▸ List.mem_map_of_mem he
    simpa using (hexact e.server).mp hthere
  have hkept : shelf.filter (fun e => (wanted.map Entry.server).contains e.2) = shelf := by
    rw [List.filter_eq_self]
    intro e he
    rw [List.contains_iff_mem]
    exact (hexact e.2).mp (List.mem_map_of_mem he)
  rw [hmissing] at hnews
  obtain rfl := List.map_eq_nil_iff.mp hnews
  obtain ⟨posts, rfl, hposts, -⟩ := hmade.asked
  rw [hshows.servers, hmissing] at hposts
  obtain rfl := List.map_eq_nil_iff.mp hposts
  refine ⟨by rw [hunwanted]; rfl, by rw [hkept, List.append_nil], ?_⟩
  have hadded := hmade.added
  have hdeleted := hmade.deleted
  rw [hshows.servers, hmissing] at hadded
  rw [hunwanted] at hdeleted
  obtain ⟨added, deleted⟩ := changes
  simp only at hadded hdeleted
  rw [hadded, hdeleted]
  rfl

end Settled

/-- An update can be served whatever a shelf holds, if its numbers have 64 bits. -/
theorem exists_served {c : Client} {context : Context} {upstream : String} {l : Location}
    (hl : c.serversAt context upstream none = .ok l) (wanted : List Entry) {shelf : Shelf}
    (hnumbers : ∀ i ∈ shelf.ids, Json.FitsInt64 i) :
    ∃ requests shelf' result,
      Served context shelf (c.update context upstream wanted) requests shelf' result := by
  have hgranted := shelf.grants_shown context hnumbers (q := .listAt l) rfl 0
  obtain ⟨listed, hlisting, -⟩ := listing_of_grants rfl hgranted
  have hwrites : ∀ q ∈ Reconcile.writes context l listed wanted, q.method ≠ .get := by
    intro q hq
    rcases List.mem_append.mp hq with hpost | hdelete
    · obtain ⟨p, -, rfl⟩ := List.mem_map.mp hpost
      simp [Request.postAt]
    · obtain ⟨d, -, rfl⟩ := List.mem_map.mp hdelete
      simp [Request.deleteAt]
  obtain ⟨shelf', hserved⟩ :=
    exists_served_writes context shelf hwrites (Reconcile.changes listed wanted)
  refine ⟨.listAt l :: Reconcile.writes context l listed wanted, shelf',
    .ok (Reconcile.changes listed wanted), ?_⟩
  rw [Client.update_eq hl]
  refine .ask _ 0 hgranted ?_
  simp only [hlisting]
  exact hserved

/-! ## Exactly the difference -/

/-- **An update makes exactly the difference.** Whatever is listed, and whatever is wanted, an update without a
refusal posts and deletes exactly what makes the one into the other. On a server that grants everything the
upstream has exactly the wanted addresses afterwards, wanted entries keep their numbers, and the same update
made at once again only lists and changes nothing. -/
theorem update_exact {c : Client} {context : Context} {upstream : String} {l : Location}
    (hl : c.serversAt context upstream none = .ok l) (wanted : List Entry) :
    (∀ r listed rest, r.isSuccess = true → Entry.decodeList? context r.body = some listed →
      (∀ a ∈ rest, refuses a = false) →
      (Reconcile.missing (listed.map Entry.server) (wanted.map Entry.server)).length
        + ((Reconcile.unwanted listed (wanted.map Entry.server)).filterMap Entry.id).length ≤ rest.length →
      ∃ changes, ((c.update context upstream wanted).hear (.ok r :: rest)).result? = some (.ok changes) ∧
        MakesDifference context l listed wanted ((c.update context upstream wanted).requests (.ok r :: rest))
          changes) ∧
    ((∀ w ∈ wanted, w.Fits) → ∀ shelf : Shelf, shelf.ids.Nodup →
      ((∀ i ∈ shelf.ids, Json.FitsInt64 i) → ∃ requests shelf' result,
        Served context shelf (c.update context upstream wanted) requests shelf' result) ∧
      ∀ requests shelf' result, Served context shelf (c.update context upstream wanted) requests shelf' result →
        Settled context l wanted shelf requests shelf' result ∧
        (∀ a, a ∈ shelf'.addresses ↔ a ∈ wanted.map Entry.server) ∧
        (∀ e ∈ shelf, e.2 ∈ wanted.map Entry.server → e ∈ shelf') ∧
        ∀ requests' shelf'' result',
          Served context shelf' (c.update context upstream wanted) requests' shelf'' result' →
            requests' = [.listAt l] ∧ shelf'' = shelf' ∧ result' = .ok {}) := by
  refine ⟨fun r listed rest hr hread hgranted henough => update_granted hl wanted hr hread hgranted henough, ?_⟩
  intro hfits shelf hids
  refine ⟨exists_served hl wanted, ?_⟩
  intro requests shelf' result hserved
  have hsettled := settled_of_served hl hfits hids hserved
  refine ⟨hsettled, hsettled.addresses_iff, ?_, ?_⟩
  · intro e he hwanted
    obtain ⟨news, rfl, -⟩ := hsettled.entries
    exact List.mem_append_left _ (List.mem_filter.mpr ⟨he, by simpa using hwanted⟩)
  · intro requests' shelf'' result' hagain
    exact (settled_of_served hl hfits hsettled.ids_once hagain).of_addresses_iff hsettled.addresses_iff

/-- One of the wanted addresses is wanted twice. -/
def wantedTwice : List Entry :=
  [{ server := "10.0.0.1:80" }, { server := "10.0.0.2:80" }, { server := "10.0.0.1:80", weight := some 5 }]

/-- An unwanted address is there twice, and a wanted one once. -/
def heldTwice : Shelf :=
  [(1, "10.0.0.9:80"), (2, "10.0.0.2:80"), (3, "10.0.0.9:80")]

/-- With addresses that occur twice on both sides, the wanted entry keeps its number. -/
theorem update_exact_twice : ∃ requests shelf' result,
    Served .http heldTwice ((Client.new "http://lb").update .http "web" wantedTwice) requests shelf' result ∧
      (∀ a, a ∈ shelf'.addresses ↔ a ∈ wantedTwice.map Entry.server) ∧ (2, "10.0.0.2:80") ∈ shelf' := by
  have hplace : (Client.new "http://lb").serversAt .http "web" none = .ok
      { scheme := "http", host := some "lb", segments := ["8", "http", "upstreams", "web", "servers"] } := by
    decide +kernel
  have hfits : ∀ w ∈ wantedTwice, w.Fits := by
    intro w hw
    simp only [wantedTwice, List.mem_cons, List.not_mem_nil, or_false] at hw
    obtain rfl | rfl | rfl := hw
    · exact ⟨by simp, by simp, by simp⟩
    · exact ⟨by simp, by simp, by simp⟩
    · exact ⟨by simp, by simp [Json.FitsInt64], by simp⟩
  have hnumbers : ∀ i ∈ heldTwice.ids, Json.FitsInt64 i := by
    simp [heldTwice, Shelf.ids, Json.FitsInt64]
  obtain ⟨-, hserver⟩ := update_exact hplace wantedTwice
  obtain ⟨hexists, hall⟩ := hserver hfits heldTwice (by decide)
  obtain ⟨requests, shelf', result, hserved⟩ := hexists hnumbers
  obtain ⟨-, haddresses, hkept, -⟩ := hall requests shelf' result hserved
  exact ⟨requests, shelf', result, hserved, haddresses, hkept _ (by simp [heldTwice]) (by simp [wantedTwice])⟩

end BorderSync.Border
