/-
# BorderSync.Proofs.Border.Conduct -- what a border server may be asked, whatever it answers

Carrying out an update asks nothing that the update does not call for. All requests are about the servers of
its own upstream on its own host; nothing is written before the entries are listed; what is posted is wanted
and missing, what is deleted is listed and not wanted; and the first failure is the end, and the result. This
holds for every script of answers, and at every moment of it.
-/
import BorderSync.Proofs.Border.Agenda
import BorderSync.Proofs.Border.Difference

namespace BorderSync.Border

open Endpoint (Location)
open Event (Update)

/-- The failure that the answer to a request is; a list has to be readable, too. -/
def failureOf? (context : Context) (q : Request) (a : Answer) : Option Error :=
  match q.method, listing context a with
  | .get, .error e => some e
  | .get, .ok _ => none
  | _, _ => failure? a

/-- **Called for**: these writes are the beginning of what an update calls for when these entries are listed. -/
inductive CalledFor (u : Update) (context : Context) (l : Location) (listed : List Entry) :
    List Request → Prop
  /-- Missing addresses are posted, each once, before the entries of unwanted ones are deleted. -/
  | changes (posts : List String) (removed : List Entry) (ids : List Int) (hkind : u.kind ≠ .deleted)
    (hwanted : ∀ a ∈ posts, a ∈ u.servers) (hmissing : ∀ a ∈ posts, ∀ e ∈ listed, e.server ≠ a)
    (honce : posts.Nodup) (hlisted : removed.Sublist listed)
    (hids : List.Forall₂ (fun e i => e.id = some i ∧ e.server ∉ u.servers) removed ids) :
    CalledFor u context l listed
      (posts.map (fun a => .postAt context l { server := a }) ++ ids.map (.deleteAt l))
  /-- The first entry with the address of the first server is deleted. -/
  | removal (server : String) (others : List String) (e : Entry) (id : Int) (hkind : u.kind = .deleted)
    (hservers : u.servers = server :: others)
    (hfirst : listed.find? (fun e => e.server == server) = some e) (hid : e.id = some id) :
    CalledFor u context l listed [.deleteAt l id]
  | nothing (hkind : u.kind = .deleted) : CalledFor u context l listed []

/-- **Course** of an attempt, given the answers that have come. -/
inductive Course (u : Update) (context : Context) (answers : List Answer) : List Request → Prop
  /-- Nothing is asked only if there is nothing to delete, or no place to ask at. -/
  | silent (hsilent : (u.kind = .deleted ∧ u.servers = []) ∨
      ∃ e, (Client.new u.host).serversAt context u.upstream none = .error e) :
    Course u context answers []
  /-- Only the list is asked for while there is none. -/
  | lists (l : Location) (hunlisted : ∀ a ∈ answers.head?, ∃ e, listing context a = .error e) :
    Course u context answers [.listAt l]
  /-- Writes follow that the entries of a granted and readable list call for, up to the first refusal. -/
  | writes (l : Location) (r : Response) (rest : List Answer) (listed : List Entry) (writes : List Request)
    (hanswers : answers = .ok r :: rest) (hgranted : r.isSuccess = true)
    (hread : Entry.decodeList? context r.body = some listed) (hcalled : CalledFor u context l listed writes)
    (hall : writes = (agenda context l u listed).take (grantedRun rest + 1)) :
    Course u context answers (.listAt l :: writes)

/-- **Managed**: what the requests and the result of an attempt are like, for an update that somebody can
carry out. -/
structure Managed (u : Update) (context : Context) (answers : List Answer) (requests : List Request)
    (result? : Option (Except Error Unit)) : Prop where
  /-- All requests are about the servers of the upstream, and only a deletion is about a single one. -/
  place : ∀ q ∈ requests, ∃ id, (Client.new u.host).serversAt context u.upstream id = .ok q.location ∧
    (id.isSome ↔ q.method = .delete)
  course : Course u context answers requests
  /-- The first failure is the last thing that is heard, and it is the result. -/
  stops : ∀ i q a e, requests[i]? = some q → answers[i]? = some a → failureOf? context q a = some e →
    requests.length = i + 1 ∧ result? = some (.error e)
  /-- A deletion without a server asks nothing. -/
  serverless : u.kind = .deleted → u.servers = [] →
    requests = [] ∧ result? = some (.error (.deleteWithoutServer u.upstream))
  /-- A deletion ends with the list if the entry is not there, or has no number. -/
  absent : ∀ server others r listed, u.kind = .deleted → u.servers = server :: others → requests ≠ [] →
    answers.head? = some (.ok r) → r.isSuccess = true → Entry.decodeList? context r.body = some listed →
      (∀ e, listed.find? (fun e => e.server == server) = some e → e.id = none) →
        requests.length = 1 ∧ result? = some (.error (.serverNotFound u.upstream server))
  /-- An attempt that succeeds has made all writes that the list calls for. -/
  applied : result? = some (.ok ()) → ∃ l r listed, answers.head? = some (.ok r) ∧
    Entry.decodeList? context r.body = some listed ∧ requests = .listAt l :: agenda context l u listed

/-- **Conduct**: what the requests and the result of an attempt at an update are like, given the answers. -/
structure Conduct (u : Update) (answers : List Answer) (requests : List Request)
    (result? : Option (Except Error Unit)) : Prop where
  managed : ∀ context : Context, u.clientType = context.text → Managed u context answers requests result?
  /-- An update of an unknown client type asks nothing, and counts as done. -/
  unknown : u.clientType ≠ "http" → u.clientType ≠ "stream" → requests = [] ∧ result? = some (.ok ())
  /-- Only while the last request is open there is no result. -/
  heard : result? = none ↔ requests.length = answers.length + 1

/-! ## What a list calls for -/

namespace Reconcile

/-- What an update posts is told by its address alone. -/
theorem bare_of_mem_additions {u : Update} {listed : List Entry} {p : Entry}
    (hp : p ∈ additions listed (wantedEntries u)) : p.server ∈ u.servers ∧ p = { server := p.server } := by
  obtain ⟨⟨w, hw, rfl⟩, -⟩ := of_mem_additions hp
  obtain ⟨a, ha, rfl⟩ := List.mem_map.mp hw
  exact ⟨ha, rfl⟩

/-- What is deleted is, one by one, a listed entry that is not wanted. -/
theorem removals_listed (listed wanted : List Entry) : ∃ removed : List Entry, removed.Sublist listed ∧
    List.Forall₂ (fun e d => (e.id = some d.1 ∧ e.server = d.2) ∧ ∀ w ∈ wanted, w.server ≠ e.server) removed
      (removals listed wanted) := by
  unfold removals
  induction listed with
  | nil => exact ⟨[], List.Sublist.refl _, .nil⟩
  | cons e listed ih =>
    obtain ⟨removed, hsublist, hremoved⟩ := ih
    by_cases hwanted : wanted.any fun w => w.server == e.server
    · refine ⟨removed, hsublist.cons e, ?_⟩
      rwa [List.filter_cons_of_neg (by simp [hwanted])]
    · rw [List.filter_cons_of_pos (by simp [hwanted])]
      cases hid : e.id with
      | none =>
        refine ⟨removed, hsublist.cons e, ?_⟩
        rwa [List.filterMap_cons_none (by simp [removable?, hid])]
      | some i =>
        refine ⟨e :: removed, hsublist.cons_cons e, ?_⟩
        rw [List.filterMap_cons_some (b := (i, e.server)) (by simp [removable?, hid])]
        exact .cons ⟨⟨hid, rfl⟩, by simpa using hwanted⟩ hremoved

end Reconcile

/-- However many of its writes are made, a change of an upstream is called for. -/
theorem calledFor_changes {u : Update} (hkind : u.kind ≠ .deleted) (context : Context) (l : Location)
    (listed : List Entry) (n : Nat) :
    CalledFor u context l listed ((Reconcile.writes context l listed (wantedEntries u)).take n) := by
  obtain ⟨removed, hsublist, hremoved⟩ := Reconcile.removals_listed listed (wantedEntries u)
  have hadded := Reconcile.nodup_additions listed (wantedEntries u)
  generalize hposts : Reconcile.additions listed (wantedEntries u) = posts at hadded
  generalize hdeletions : Reconcile.removals listed (wantedEntries u) = deletions at hremoved
  -- what is posted is told by its address alone
  have hbare : posts.map (Request.postAt context l) =
      (posts.map Entry.server).map fun a => .postAt context l { server := a } := by
    rw [List.map_map]
    refine List.map_congr_left fun p hp => ?_
    exact congrArg (Request.postAt context l) (Reconcile.bare_of_mem_additions (hposts ▸ hp)).2
  have hwrites : (Reconcile.writes context l listed (wantedEntries u)).take n =
      ((posts.map Entry.server).take n).map (fun a => .postAt context l { server := a })
        ++ ((deletions.take (n - posts.length)).map Prod.fst).map (.deleteAt l) := by
    unfold Reconcile.writes
    rw [hposts, hdeletions, List.take_append, List.length_map, hbare]
    simp only [List.map_take, List.map_map, Function.comp_def]
  rw [hwrites]
  refine .changes _ (removed.take (n - posts.length)) _ hkind ?_ ?_ (hadded.sublist (List.take_sublist _ _))
    ((List.take_sublist _ _).trans hsublist) ?_
  · intro a ha
    obtain ⟨p, hp, rfl⟩ := List.mem_map.mp (List.mem_of_mem_take ha)
    exact (Reconcile.bare_of_mem_additions (hposts ▸ hp)).1
  · intro a ha e he
    obtain ⟨p, hp, rfl⟩ := List.mem_map.mp (List.mem_of_mem_take ha)
    exact (Reconcile.of_mem_additions (hposts ▸ hp)).2 e he
  · rw [List.forall₂_map_right_iff]
    refine (List.forall₂_take _ hremoved).imp fun e d hed => ⟨hed.1.1, fun hmem => ?_⟩
    exact hed.2 { server := e.server } (List.mem_map_of_mem hmem) rfl

theorem agenda_of_changes {u : Update} (hkind : u.kind ≠ .deleted) (context : Context) (l : Location)
    (listed : List Entry) :
    agenda context l u listed = Reconcile.writes context l listed (wantedEntries u) := by
  unfold agenda
  cases hk : u.kind with
  | deleted => exact absurd hk hkind
  | created => rfl
  | updated => rfl

/-- However many of its writes are made, an update makes what is called for. -/
theorem calledFor_take (context : Context) (l : Location) (u : Update) (listed : List Entry) (n : Nat) :
    CalledFor u context l listed ((agenda context l u listed).take n) := by
  by_cases hkind : u.kind = .deleted
  · simp only [agenda, hkind]
    cases hid : u.servers.head?.bind (Reconcile.idOf? listed) with
    | none => exact List.take_nil ▸ .nothing hkind
    | some id =>
      obtain ⟨server, hserver, hfound⟩ := Option.bind_eq_some_iff.mp hid
      obtain ⟨e, hfirst, hid⟩ := Option.bind_eq_some_iff.mp hfound
      obtain ⟨others, hservers⟩ := List.head?_eq_some_iff.mp hserver
      rw [Option.map_some, Option.toList_some]
      cases n with
      | zero => exact .nothing hkind
      | succ n =>
        rw [List.take_succ_cons, List.take_nil]
        exact .removal server others e id hkind hservers hfirst hid
  · rw [agenda_of_changes hkind]
    exact calledFor_changes hkind context l listed n

/-! ## Whatever the answers are -/

section Placed

variable {u : Update} {context : Context} {l : Location}
  (hcontext : Manager.context? u.clientType = some context)
  (hl : (Client.new u.host).serversAt context u.upstream none = .ok l)
  (hservers : u.kind = .deleted → u.servers ≠ [])

include hcontext hl hservers

/-- An attempt without an answer has asked for the list. -/
theorem requests_unanswered : (carryOut u).requests [] = [.listAt l] ∧
    ((carryOut u).hear []).result? = none := by
  rw [carryOut_eq hcontext hl hservers]
  exact ⟨rfl, rfl⟩

/-- An attempt whose list fails is over. -/
theorem requests_unlisted {a : Answer} {e : Error} (ha : listing context a = .error e)
    (answers : List Answer) : (carryOut u).requests (a :: answers) = [.listAt l] ∧
      ((carryOut u).hear (a :: answers)).result? = some (.error e) := by
  rw [carryOut_eq hcontext hl hservers, Call.requests, Call.hear, ha]
  simp [Call.result?]

/-- **An attempt that has listed** makes the writes of its agenda up to the first refusal, and ends with it
or when all are granted. -/
theorem requests_listed {a : Answer} {listed : List Entry} (ha : listing context a = .ok listed)
    (answers : List Answer) :
    (carryOut u).requests (a :: answers) =
        .listAt l :: (agenda context l u listed).take (grantedRun answers + 1) ∧
      ((carryOut u).hear (a :: answers)).result? =
        if (agenda context l u listed).length ≤ grantedRun answers then some (conclusion u listed)
        else (answers[grantedRun answers]?.bind failure?).map .error := by
  rw [carryOut_eq hcontext hl hservers, Call.requests, Call.hear, ha]
  constructor
  · simp only [Call.onSuccess_done, Call.requests_map, Call.requests_inTurn]
  · simp only [Call.onSuccess_done, Call.result?_hear_map, Call.result?_inTurn]
    split
    · rfl
    · rw [Option.map_map]
      rfl

end Placed

/-- What an agenda holds is a post or a deletion at its place. -/
theorem of_mem_agenda {context : Context} {l : Location} {u : Update} {listed : List Entry} {q : Request}
    (hq : q ∈ agenda context l u listed) : (∃ e, q = .postAt context l e) ∨ ∃ id, q = .deleteAt l id := by
  by_cases hkind : u.kind = .deleted
  · simp only [agenda, hkind, Option.mem_toList, Option.map_eq_some_iff] at hq
    obtain ⟨id, -, rfl⟩ := hq
    exact .inr ⟨id, rfl⟩
  · rw [agenda_of_changes hkind, Reconcile.writes, List.mem_append, List.mem_map, List.mem_map] at hq
    obtain ⟨e, -, rfl⟩ | ⟨d, -, rfl⟩ := hq
    · exact .inl ⟨e, rfl⟩
    · exact .inr ⟨d.1, rfl⟩

/-- The first refusal of a write is the last thing that is heard, and it is the result. -/
theorem stops_writes {context : Context} {l : Location} {u : Update} {listed : List Entry}
    {answers : List Answer} {i : Nat} {q : Request} {a : Answer} {e : Error}
    (hq : ((agenda context l u listed).take (grantedRun answers + 1))[i]? = some q) (ha : answers[i]? = some a)
    (he : failureOf? context q a = some e) :
    ((agenda context l u listed).take (grantedRun answers + 1)).length = i + 1 ∧
      (if (agenda context l u listed).length ≤ grantedRun answers then some (conclusion u listed)
        else (answers[grantedRun answers]?.bind failure?).map .error) = some (.error e) := by
  -- an answer to a write fails by what it says alone
  have hfailure : failure? a = some e := by
    obtain ⟨p, rfl⟩ | ⟨id, rfl⟩ := of_mem_agenda (List.mem_of_mem_take (List.mem_of_getElem? hq))
    · exact he
    · exact he
  rw [← Call.requests_inTurn] at hq
  obtain ⟨hlast, hend⟩ := Call.stops_inTurn hq ha hfailure
  rw [Call.requests_inTurn] at hlast
  rw [Call.result?_inTurn] at hend
  refine ⟨hlast, ?_⟩
  split at hend
  · exact absurd hend (by simp)
  · rename_i hopen
    exact (if_neg hopen).trans hend

/-- Without a request, there is only the failure that came first. -/
theorem managed_silent {u : Update} {context : Context} {e : Error} (answers : List Answer)
    (hserverless : u.kind = .deleted → u.servers = [] → e = .deleteWithoutServer u.upstream)
    (hsilent : (u.kind = .deleted ∧ u.servers = []) ∨
      ∃ e, (Client.new u.host).serversAt context u.upstream none = .error e) :
    Managed u context answers [] (some (.error e)) where
  place q hq := absurd hq List.not_mem_nil
  course := .silent hsilent
  stops i q a e hq := absurd hq (by simp)
  serverless hkind hservers := ⟨rfl, by rw [hserverless hkind hservers]⟩
  absent server others r listed hkind hservers hasked := absurd rfl hasked
  applied hok := absurd hok (by simp)

section Placed

variable {u : Update} {context : Context} {l : Location}
  (hcontext : Manager.context? u.clientType = some context)
  (hl : (Client.new u.host).serversAt context u.upstream none = .ok l)
  (hservers : u.kind = .deleted → u.servers ≠ [])

include hl

/-- A list is asked where the entries of the upstream are. -/
theorem place_listAt : ∃ id,
    (Client.new u.host).serversAt context u.upstream id = .ok (Request.listAt l).location ∧
      (id.isSome ↔ (Request.listAt l).method = .delete) :=
  ⟨none, hl, by simp [Request.listAt]⟩

/-- Writes are made where the entries of the upstream are. -/
theorem place_agenda {listed : List Entry} {q : Request} (hq : q ∈ agenda context l u listed) :
    ∃ id, (Client.new u.host).serversAt context u.upstream id = .ok q.location ∧
      (id.isSome ↔ q.method = .delete) := by
  obtain ⟨e, rfl⟩ | ⟨id, rfl⟩ := of_mem_agenda hq
  · exact ⟨none, hl, by simp [Request.postAt]⟩
  · refine ⟨some id, ?_, by simp [Request.deleteAt]⟩
    rw [serversAt_entry, hl]
    rfl

include hcontext hservers

theorem managed_unanswered :
    Managed u context [] ((carryOut u).requests []) ((carryOut u).hear []).result? := by
  rw [(requests_unanswered hcontext hl hservers).1, (requests_unanswered hcontext hl hservers).2]
  exact {
    place := fun q hq => List.mem_singleton.mp hq ▸ place_listAt hl
    course := .lists l (by simp)
    stops := fun i q a e hq ha => absurd ha (by simp)
    serverless := fun hkind hnone => absurd hnone (hservers hkind)
    absent := fun server others r listed hkind hcons hasked ha => absurd ha (by simp)
    applied := fun hok => absurd hok (by simp) }

theorem managed_unlisted {a : Answer} {e : Error} (ha : listing context a = .error e) (answers : List Answer) :
    Managed u context (a :: answers) ((carryOut u).requests (a :: answers))
      ((carryOut u).hear (a :: answers)).result? := by
  obtain ⟨hrequests, hresult⟩ := requests_unlisted hcontext hl hservers ha answers
  rw [hrequests, hresult]
  exact {
    place := fun q hq => List.mem_singleton.mp hq ▸ place_listAt hl
    course := .lists l fun b hb => ⟨e, Option.some.inj hb ▸ ha⟩
    stops := by
      intro i q b f hq hb hf
      cases i with
      | zero =>
        obtain rfl : Request.listAt l = q := by simpa using hq
        obtain rfl : a = b := by simpa using hb
        simp only [failureOf?, Request.listAt, ha, Option.some.injEq] at hf
        exact ⟨rfl, by rw [hf]⟩
      | succ i => exact absurd hq (by simp)
    serverless := fun hkind hnone => absurd hnone (hservers hkind)
    absent := by
      intro server others r listed hkind hcons hasked hr hgranted hread
      obtain rfl : a = .ok r := by simpa using hr
      simp [listing, hgranted, hread] at ha
    applied := fun hok => absurd hok (by simp) }

/-- **An attempt that has listed** writes what its list calls for, and stops at the first refusal. -/
theorem managed_listed {r : Response} {listed : List Entry} (hgranted : r.isSuccess = true)
    (hread : Entry.decodeList? context r.body = some listed) (answers : List Answer) :
    Managed u context (.ok r :: answers) ((carryOut u).requests (.ok r :: answers))
      ((carryOut u).hear (.ok r :: answers)).result? := by
  have ha : listing context (.ok r) = .ok listed := by simp [listing, hgranted, hread]
  obtain ⟨hrequests, hresult⟩ := requests_listed hcontext hl hservers ha answers
  rw [hrequests, hresult]
  exact {
    place := by
      intro q hq
      rcases List.mem_cons.mp hq with rfl | hq
      · exact place_listAt hl
      · exact place_agenda hl (List.mem_of_mem_take hq)
    course := .writes l r answers listed _ rfl hgranted hread (calledFor_take context l u listed _) rfl
    stops := by
      intro i q b f hq hb hf
      cases i with
      | zero =>
        obtain rfl : Request.listAt l = q := by simpa using hq
        obtain rfl : Except.ok r = b := by simpa using hb
        simp [failureOf?, Request.listAt, ha] at hf
      | succ i =>
        obtain ⟨hlast, hend⟩ := stops_writes hq hb hf
        exact ⟨congrArg (· + 1) hlast, hend⟩
    serverless := fun hkind hnone => absurd hnone (hservers hkind)
    absent := by
      intro server others r' listed' hkind hcons hasked hr hgranted' hread' hfirst
      obtain rfl : r = r' := by simpa using hr
      obtain rfl : listed = listed' := by simpa [hread] using hread'
      have hnone : Reconcile.idOf? listed server = none := Option.bind_eq_none_iff.mpr hfirst
      simp [agenda, conclusion, hkind, hcons, hnone]
    applied := by
      intro hok
      split at hok
      · rename_i hall
        exact ⟨l, r, listed, rfl, hread, by rw [List.take_of_length_le (Nat.le_succ_of_le hall)]⟩
      · obtain ⟨f, -, hf⟩ := Option.map_eq_some_iff.mp hok
        exact absurd hf (by simp) }

end Placed

/-- **Whatever a border server answers**, an attempt at an update keeps to its conduct. -/
theorem carryOut_conduct (u : Update) (answers : List Answer) :
    Conduct u answers ((carryOut u).requests answers) ((carryOut u).hear answers).result? where
  managed := by
    intro context htype
    have hcontext : Manager.context? u.clientType = some context := by
      rw [htype]
      cases context <;> rfl
    by_cases hserverless : u.kind = .deleted ∧ u.servers = []
    · rw [carryOut_of_serverless hcontext hserverless.1 hserverless.2, Call.requests_done, Call.hear_done]
      exact managed_silent answers (fun _ _ => rfl) (.inl hserverless)
    · have hservers : u.kind = .deleted → u.servers ≠ [] := fun hkind hnone => hserverless ⟨hkind, hnone⟩
      cases hl : (Client.new u.host).serversAt context u.upstream none with
      | error e =>
        rw [carryOut_of_unplaced hcontext hl hservers, Call.requests_done, Call.hear_done]
        exact managed_silent answers (fun hkind hnone => absurd hnone (hservers hkind)) (.inr ⟨e, hl⟩)
      | ok l =>
        cases answers with
        | nil => exact managed_unanswered hcontext hl hservers
        | cons a answers =>
          cases ha : listing context a with
          | error e => exact managed_unlisted hcontext hl hservers ha answers
          | ok listed =>
            obtain ⟨r, rfl, hgranted, hread⟩ := listing_eq_ok ha
            exact managed_listed hcontext hl hservers hgranted hread answers
  unknown := by
    intro hhttp hstream
    have hcontext : Manager.context? u.clientType = none := by
      rw [Manager.context?, if_neg hhttp, if_neg hstream]
    rw [carryOut_of_unknown hcontext, Call.requests_done, Call.hear_done]
    exact ⟨rfl, rfl⟩
  heard := Call.result?_hear_eq_none_iff _ _

end BorderSync.Border
