/-
# BorderSync.Proofs.Border.Contexts -- HTTP and stream upstreams are kept alike

HTTP and stream upstreams are managed in the same way. If what a border server lists can be read as entries
of either kind, the same requests are made with the same bodies, one after the other, and the only
difference is one segment of their places; and the results are the same.
-/
import BorderSync.Proofs.Border.Address
import BorderSync.Proofs.Border.Conduct

namespace BorderSync.Border

open Endpoint (Location)
open Event (Update)

/-! ## Lists that can be read either way -/

namespace Entry

open Json (Value)

/-- Without the fail timeout, the same fields make the same entry without one. -/
theorem ofFields?_timeless {id server weight maxFails failTimeout down : Value} {e e' : Entry}
    (he : ofFields? id server weight maxFails failTimeout down = some e)
    (he' : ofFields? id server weight maxFails .null down = some e') : e' = e.shown .stream := by
  simp only [ofFields?, Option.bind_eq_bind, Option.bind_eq_some_iff, Option.pure_def, Option.some.injEq]
    at he he'
  obtain ⟨i, hid, a, hserver, w, hweight, m, hmaxFails, t, -, d, hdown, rfl⟩ := he
  obtain ⟨i', hid', a', hserver', w', hweight', m', hmaxFails', t', htimeless, d', hdown', rfl⟩ := he'
  obtain rfl := Option.some.inj (hid.symm.trans hid')
  obtain rfl := Option.some.inj (hserver.symm.trans hserver')
  obtain rfl := Option.some.inj (hweight.symm.trans hweight')
  obtain rfl := Option.some.inj (hmaxFails.symm.trans hmaxFails')
  obtain rfl := Option.some.inj (hdown.symm.trans hdown')
  obtain rfl : none = t' := Option.some.inj htimeless
  rfl

/-- An entry that is read from an array has an item for each of its keys. -/
theorem length_of_ofJson? {context : Context} {items : List Value} {e : Entry}
    (he : ofJson? context (.array items) = some e) : items.length = (keys context).length := by
  simp only [ofJson?] at he
  split at he
  · rfl
  · rfl
  · exact absurd he (by simp)

/-- **What can be read as an entry of either kind** is the same entry, up to the fail timeout. -/
theorem ofJson?_either {v : Value} {e e' : Entry} (he : ofJson? .http v = some e)
    (he' : ofJson? .stream v = some e') : e' = e.shown .stream := by
  cases v with
  | object members =>
    simp only [ofJson?, Option.bind_eq_bind, Option.bind_eq_some_iff] at he he'
    obtain ⟨ms, hms, he⟩ := he
    obtain ⟨ms', hms', he'⟩ := he'
    obtain rfl := Option.some.inj (hms.symm.trans hms')
    split at he
    · split at he'
      · exact ofFields?_timeless he he'
      · exact absurd he' (by simp)
    · exact absurd he (by simp)
  | array items =>
    -- the two kinds do not have the same number of keys
    have hlength := (length_of_ofJson? he).symm.trans (length_of_ofJson? he')
    exact absurd hlength (by decide)
  | _ => exact absurd he (by simp [ofJson?])

theorem listOfJson?_either {v : Value} {es es' : List Entry} (hes : listOfJson? .http v = some es)
    (hes' : listOfJson? .stream v = some es') : es' = es.map (shown .stream) := by
  cases v with
  | array items =>
    simp only [listOfJson?] at hes hes'
    induction items generalizing es es' with
    | nil =>
      obtain rfl : [] = es := Option.some.inj hes
      exact (Option.some.inj hes').symm
    | cons item items ih =>
      simp only [List.mapM_cons, Option.bind_eq_bind, Option.bind_eq_some_iff, Option.pure_def,
        Option.some.injEq] at hes hes'
      obtain ⟨e, he, rest, hrest, rfl⟩ := hes
      obtain ⟨e', he', rest', hrest', rfl⟩ := hes'
      rw [List.map_cons, ofJson?_either he he', ih hrest hrest']
  | _ => exact absurd hes (by simp [listOfJson?])

/-- **What can be read as a list of either kind** is the same list, up to the fail timeouts. -/
theorem decodeList?_either {body : List UInt8} {es es' : List Entry} (hes : decodeList? .http body = some es)
    (hes' : decodeList? .stream body = some es') : es' = es.map (shown .stream) := by
  obtain ⟨v, hv, hlist⟩ := Option.bind_eq_some_iff.mp hes
  obtain ⟨v', hv', hlist'⟩ := Option.bind_eq_some_iff.mp hes'
  obtain rfl := Option.some.inj (hv.symm.trans hv')
  exact listOfJson?_either hlist hlist'

end Entry

/-! ## The difference does not look at fail timeouts -/

namespace Reconcile

variable (listed wanted : List Entry)

theorem additions_shown : additions (listed.map (Entry.shown .stream)) wanted = additions listed wanted := by
  unfold additions
  simp only [List.any_map]
  rfl

theorem removals_shown : removals (listed.map (Entry.shown .stream)) wanted = removals listed wanted := by
  unfold removals
  rw [List.filter_map, List.filterMap_map]
  rfl

theorem idOf?_shown (server : String) :
    idOf? (listed.map (Entry.shown .stream)) server = idOf? listed server := by
  unfold idOf?
  rw [List.find?_map]
  show ((listed.find? fun l => l.server == server).map (Entry.shown .stream)).bind Entry.id = _
  cases listed.find? fun l => l.server == server <;> rfl

end Reconcile

/-- An entry that is told by its address alone is written alike. -/
theorem Entry.encode_bare (address : String) :
    Entry.encode .stream { server := address } = Entry.encode .http { server := address } := rfl

/-! ## Places -/

/-- All places of an upstream differ in the segment that names the context. -/
theorem serversAt_contexts (c : Client) (upstream : String) :
    (∃ e, ∀ context, c.serversAt context upstream none = .error e) ∨
      ∃ (l : Location) (before after : List String), ∀ context,
        c.serversAt context upstream none =
          .ok { l with segments := before ++ Context.text context :: after } := by
  unfold Client.serversAt Client.placeBy
  cases Endpoint.read c.endpoint with
  | error fault => exact .inl ⟨_, fun _ => rfl⟩
  | ok reading =>
    cases reading with
    | pathless => exact .inl ⟨_, fun _ => rfl⟩
    | place l =>
      refine .inr ⟨l, Location.own l.segments ++ ["8"],
        Location.addSegment l.isWeb ["upstreams"] upstream ++ tail none, ?_⟩
      intro context
      have hsegments := segments_below l context upstream none
      simp only [List.cons_append, List.nil_append, List.append_assoc] at hsegments ⊢
      exact congrArg (fun segments => Except.ok { l with segments := segments }) hsegments

/-! ## Requests -/

namespace Request

/-- The same request in another context; the segment with number `n` names the context. -/
def inContext (n : Nat) (context : Context) (q : Request) : Request :=
  { q with location := { q.location with segments := q.location.segments.set n context.text } }

/-- The segment that names the context. -/
def context? (n : Nat) (q : Request) : Option String :=
  q.location.segments[n]?

end Request

section Place

variable (l : Location) (before after : List String)

/-- The place of an upstream in a context. -/
abbrev placeIn (context : Context) : Location :=
  { l with segments := before ++ Context.text context :: after }

/-- The writes of an agenda are made in a context. -/
theorem agenda_inContext (u : Update) (listed : List Entry) :
    agenda .stream (placeIn l before after .stream) u (listed.map (Entry.shown .stream)) =
      (agenda .http (placeIn l before after .http) u listed).map (Request.inContext before.length .stream) := by
  have hdelete : ∀ id, Request.deleteAt (placeIn l before after .stream) id =
      (Request.deleteAt (placeIn l before after .http) id).inContext before.length .stream := by
    intro id
    simp [Request.deleteAt, Request.inContext]
  by_cases hkind : u.kind = .deleted
  · simp only [agenda, hkind]
    have hids : u.servers.head?.bind (Reconcile.idOf? (listed.map (Entry.shown .stream))) =
        u.servers.head?.bind (Reconcile.idOf? listed) :=
      congrArg _ (funext (Reconcile.idOf?_shown listed))
    rw [hids]
    cases u.servers.head?.bind (Reconcile.idOf? listed) with
    | none => rfl
    | some id => simp [hdelete]
  · rw [agenda_of_changes hkind, agenda_of_changes hkind]
    unfold Reconcile.writes
    rw [Reconcile.additions_shown, Reconcile.removals_shown, List.map_append, List.map_map, List.map_map]
    congr 1
    · refine List.map_congr_left ?_
      intro p hp
      -- what is posted is told by its address alone, and so it is written alike
      rw [(Reconcile.bare_of_mem_additions hp).2]
      simp [Request.postAt, Request.inContext, Entry.encode_bare]
    · refine List.map_congr_left ?_
      intro d _
      exact hdelete d.1

/-- All that is asked in a context names it. -/
theorem context?_of_mem_agenda {u : Update} {listed : List Entry} {context : Context} {q : Request}
    (hq : q ∈ agenda context (placeIn l before after context) u listed) :
    q.context? before.length = some context.text := by
  obtain ⟨e, rfl⟩ | ⟨id, rfl⟩ := of_mem_agenda hq
  · simp [Request.context?, Request.postAt]
  · simp [Request.context?, Request.deleteAt]

theorem conclusion_shown (u : Update) (listed : List Entry) :
    conclusion u (listed.map (Entry.shown .stream)) = conclusion u listed := by
  unfold conclusion
  simp only [Reconcile.idOf?_shown]

end Place

/-! ## Answers -/

/-- **Read alike**: a list in the answer can be read as entries of both kinds, or of neither. -/
def ReadAlike (a : Answer) : Prop :=
  ∀ r, a = .ok r → r.isSuccess = true →
    (Entry.decodeList? .http r.body).isSome = (Entry.decodeList? .stream r.body).isSome

/-- What is read alike shows the same entries, up to the fail timeouts. -/
theorem listing_alike {a : Answer} (ha : ReadAlike a) :
    listing .stream a = (listing .http a).map (List.map (Entry.shown .stream)) := by
  cases a with
  | error fault => rfl
  | ok r =>
    simp only [listing]
    split
    · rename_i hr
      have halike := ha r rfl hr
      cases hhttp : Entry.decodeList? .http r.body with
      | none =>
        rw [hhttp, Option.isSome_none, eq_comm, Option.isSome_eq_false_iff, Option.isNone_iff_eq_none] at halike
        rw [halike]
        rfl
      | some listed =>
        rw [hhttp, Option.isSome_some, eq_comm, Option.isSome_iff_exists] at halike
        obtain ⟨listed', hstream⟩ := halike
        rw [hstream, Entry.decodeList?_either hhttp hstream]
        rfl
    · rfl

/-! ## Attempts -/

/-- An update of an upstream in a context. -/
def managedIn (context : Context) (u : Update) : Update :=
  { u with clientType := context.text }

theorem context?_managedIn (context : Context) (u : Update) :
    Manager.context? (managedIn context u).clientType = some context := by
  cases context <;> rfl

/-- **Alike**: the same requests but for the context that they name, and the same result. -/
structure Alike (n : Nat) (answers : List Answer) (http stream : Call (Except Error Unit)) : Prop where
  requests : stream.requests answers = (http.requests answers).map (Request.inContext n .stream)
  named : ∀ q ∈ http.requests answers, q.context? n = some Context.http.text
  result : (stream.hear answers).result? = (http.hear answers).result?

/-- Conversations that are over alike. -/
theorem alike_done (n : Nat) (answers : List Answer) (r : Except Error Unit) :
    Alike n answers (.done r) (.done r) where
  requests := by rw [Call.requests_done, List.map_nil]
  named q hq := absurd hq (by simp)
  result := rfl

/-- Conversations that list the same upstream, and then ask alike. -/
theorem alike_listing {l : Location} {before after : List String} {answers : List Answer}
    {http stream : Call (Except Error Unit)} {qs : List Request}
    (hhttp : http.requests answers = .listAt (placeIn l before after .http) :: qs)
    (hstream : stream.requests answers =
      .listAt (placeIn l before after .stream) :: qs.map (Request.inContext before.length .stream))
    (hnamed : ∀ q ∈ qs, q.context? before.length = some Context.http.text)
    (hresult : (stream.hear answers).result? = (http.hear answers).result?) :
    Alike before.length answers http stream where
  requests := by
    rw [hhttp, hstream, List.map_cons]
    simp [Request.listAt, Request.inContext]
  named := by
    rw [hhttp]
    intro q hq
    rcases List.mem_cons.mp hq with rfl | hq
    · simp [Request.context?, Request.listAt]
    · exact hnamed q hq
  result := hresult

/-- **Placed alike**: attempts at an update in both contexts, at places that differ in the context only. -/
theorem alike_placed {u : Update} (hservers : u.kind = .deleted → u.servers ≠ []) {l : Location}
    {before after : List String} (hl : ∀ context : Context,
      (Client.new u.host).serversAt context u.upstream none = .ok (placeIn l before after context))
    {answers : List Answer} (hread : ∀ a ∈ answers.head?, ReadAlike a) :
    Alike before.length answers (carryOut (managedIn .http u)) (carryOut (managedIn .stream u)) := by
  have hhttp := context?_managedIn .http u
  have hstream := context?_managedIn .stream u
  cases answers with
  | nil =>
    obtain ⟨hasked, hopen⟩ := requests_unanswered hhttp (hl .http) hservers
    obtain ⟨hasked', hopen'⟩ := requests_unanswered hstream (hl .stream) hservers
    exact alike_listing hasked hasked' (by simp) (hopen'.trans hopen.symm)
  | cons a answers =>
    have halike := listing_alike (hread a (by simp))
    cases ha : listing .http a with
    | error e =>
      rw [ha] at halike
      obtain ⟨hasked, hend⟩ := requests_unlisted hhttp (hl .http) hservers ha answers
      obtain ⟨hasked', hend'⟩ := requests_unlisted hstream (hl .stream) hservers halike answers
      exact alike_listing hasked hasked' (by simp) (hend'.trans hend.symm)
    | ok listed =>
      rw [ha] at halike
      obtain ⟨hasked, hend⟩ := requests_listed hhttp (hl .http) hservers ha answers
      obtain ⟨hasked', hend'⟩ := requests_listed hstream (hl .stream) hservers halike answers
      have hagenda := agenda_inContext l before after (managedIn .stream u) listed
      rw [hagenda, ← List.map_take] at hasked'
      rw [hagenda, List.length_map, conclusion_shown] at hend'
      refine alike_listing hasked hasked' ?_ (hend'.trans hend.symm)
      intro q hq
      exact context?_of_mem_agenda l before after (List.mem_of_mem_take hq)

/-- **HTTP and stream upstreams are kept alike.** Whatever the update is, and whatever is answered: if a list
can be read as entries of either kind, or of neither, the same is asked, in the same order and with the same
bodies, at places that differ in one segment, which names the context; and the result is the same. -/
theorem contexts_alike (u : Update) : ∃ n, ∀ answers : List Answer, (∀ a ∈ answers.head?, ReadAlike a) →
    Alike n answers (carryOut (managedIn .http u)) (carryOut (managedIn .stream u)) := by
  have hhttp := context?_managedIn .http u
  have hstream := context?_managedIn .stream u
  by_cases hserverless : u.kind = .deleted ∧ u.servers = []
  · refine ⟨0, ?_⟩
    intro answers _
    rw [carryOut_of_serverless hhttp hserverless.1 hserverless.2,
      carryOut_of_serverless hstream hserverless.1 hserverless.2]
    exact alike_done 0 answers _
  · have hservers : u.kind = .deleted → u.servers ≠ [] := fun hkind hnone => hserverless ⟨hkind, hnone⟩
    obtain ⟨e, hunplaced⟩ | ⟨l, before, after, hl⟩ := serversAt_contexts (Client.new u.host) u.upstream
    · refine ⟨0, ?_⟩
      intro answers _
      rw [carryOut_of_unplaced hhttp (hunplaced .http) hservers,
        carryOut_of_unplaced hstream (hunplaced .stream) hservers]
      exact alike_done 0 answers _
    · exact ⟨before.length, fun answers hread => alike_placed hservers hl hread⟩

/-- An update that replaces one entry by another. -/
def replacement : Update where
  kind := .updated
  upstream := "web"
  clientType := ""
  servers := ["10.0.0.1:80"]
  host := "http://lb"

/-- The list has an entry with a fail timeout, and the deletion that follows the post is refused. -/
def timedList : List Answer :=
  [.ok ⟨200, (Json.Value.array
    [Entry.toJson .http { id := some 7, server := "10.0.0.9:80", failTimeout := some "5s" }]).render⟩,
    .ok ⟨201, []⟩, .ok ⟨500, []⟩]

/-- What is asked for that in a context: the list, a post of the new entry, the deletion of the old one. -/
def replacing (context : Context) : List (Method × String × Option (List UInt8)) :=
  let servers := "http://lb/8/" ++ context.text ++ "/upstreams/web/servers"
  [(.get, servers, none), (.post, servers, some (Json.octets "\x7b\"server\":\"10.0.0.1:80\"\x7d")),
    (.delete, servers ++ "/7", none)]

/-- An entry with a fail timeout can be read either way: the same three requests are made in both contexts,
and the refusal of the last one is the result. -/
theorem contexts_alike_timed : (∀ a ∈ timedList.head?, ReadAlike a) ∧
    (∃ n, Alike n timedList (carryOut (managedIn .http replacement))
      (carryOut (managedIn .stream replacement))) ∧
    ∀ context ∈ [Context.http, Context.stream],
      ((carryOut (managedIn context replacement)).requests timedList).map
          (fun q => (q.method, q.location.text, q.body)) = replacing context ∧
        ((carryOut (managedIn context replacement)).hear timedList).result? =
          some (.error (.refused 500 "")) := by
  have hread : ∀ a ∈ timedList.head?, ReadAlike a := by
    intro a ha
    obtain rfl := Option.some.inj ha
    intro r hr _
    obtain rfl := Except.ok.inj hr
    decide +kernel
  obtain ⟨n, halike⟩ := contexts_alike replacement
  refine ⟨hread, ⟨n, halike timedList hread⟩, ?_⟩
  decide +kernel

end BorderSync.Border
