/-
# BorderSync.Proofs.Border.Agenda -- what carrying out an update comes to

Carrying out an update is one list, and then writes one after the other that only depend on what was listed.
This module says which writes these are, and that nothing else is asked. Whoever wants to know what is asked
of a border server, and in which order, looks at this agenda and not at the conversation.
-/
import BorderSync.Proofs.Border.Transcript

namespace BorderSync.Border

open Endpoint (Location)
open Event (Update)

/-! ## Requests -/

namespace Request

/-- The request that lists the servers of an upstream. -/
def listAt (l : Location) : Request :=
  { method := .get, location := l }

/-- The request that adds a server. -/
def postAt (context : Context) (l : Location) (e : Entry) : Request :=
  { method := .post, location := l, body := some (e.encode context) }

/-- The request that deletes the server with a number. -/
def deleteAt (l : Location) (id : Int) : Request :=
  { method := .delete, location := { l with segments := l.segments ++ [toString id] } }

end Request

/-- **What an answer to a list shows.** -/
def listing (context : Context) : Answer → Except Error (List Entry)
  | .error fault => .error (.transport fault)
  | .ok r =>
    if r.isSuccess then
      match Entry.decodeList? context r.body with
      | some listed => .ok listed
      | none => .error (.transport .badBody)
    else .error (.refused r.status (Refusal.message r.body))

/-- A list that can be read has been granted. -/
theorem listing_eq_ok {context : Context} {a : Answer} {listed : List Entry}
    (ha : listing context a = .ok listed) :
    ∃ r, a = .ok r ∧ r.isSuccess = true ∧ Entry.decodeList? context r.body = some listed := by
  cases a with
  | error fault => exact absurd ha (by simp [listing])
  | ok r =>
    simp only [listing] at ha
    split at ha
    · rename_i hgranted
      split at ha
      · rename_i es hread
        exact ⟨r, rfl, hgranted, by rw [hread, Except.ok.inj ha]⟩
      · exact absurd ha (by simp)
    · exact absurd ha (by simp)

/-- The writes that bring a list in line with what is wanted: first all posts, then all deletions. -/
def Reconcile.writes (context : Context) (l : Location) (listed wanted : List Entry) : List Request :=
  (additions listed wanted).map (Request.postAt context l)
    ++ (removals listed wanted).map fun d => Request.deleteAt l d.1

/-- What an update has changed once all writes are granted. -/
def Reconcile.changes (listed wanted : List Entry) : Changes :=
  ⟨(additions listed wanted).map Entry.server, (removals listed wanted).map Prod.snd⟩

/-! ## Conversations of a client -/

namespace Call

variable {ρ σ τ : Type}

/-- A change of the result that leaves failures alone comes after all the rest. -/
theorem map_onSuccess (c : Call (Except Error ρ)) (f : ρ → Call (Except Error σ))
    {g : Except Error σ → Except Error τ} (hg : ∀ e, g (.error e) = .error e) :
    (c.onSuccess f).map g = c.onSuccess fun r => (f r).map g := by
  unfold map onSuccess
  rw [andThen_assoc]
  congr 1
  funext r
  cases r with
  | ok r => rfl
  | error e => exact congrArg Call.done (hg e)

end Call

namespace Client

variable {c : Client} {context : Context} {upstream : String} {l : Location}
  (hl : c.serversAt context upstream none = .ok l)

include hl

/-- A list is one request. -/
theorem list_eq : c.list context upstream = .ask (.listAt l) fun a => .done (listing context a) := by
  unfold list
  rw [hl]
  refine congrArg (Call.ask _) (funext fun a => ?_)
  cases a with
  | error fault => rfl
  | ok r =>
    cases hr : r.isSuccess with
    | false => simp [listing, hr, Call.andThen]
    | true =>
      simp only [listing, hr, if_true, Call.andThen]
      cases Entry.decodeList? context r.body <;> rfl

theorem post_eq (e : Entry) : c.post context upstream e = Call.once (.postAt context l e) := by
  unfold post
  rw [hl]
  rfl

theorem delete_eq (id : Int) : c.delete context upstream id = Call.once (.deleteAt l id) := by
  unfold delete
  rw [serversAt_entry, hl]
  rfl

/-- Writes are made one after the other. -/
theorem writing_eq (posts : List Entry) (deletions : Shelf) (changes : Changes) :
    c.writing context upstream posts deletions changes =
      (Call.inTurn (posts.map (Request.postAt context l)
        ++ deletions.map fun d => Request.deleteAt l d.1)).onSuccess fun _ => .done (.ok changes) := by
  unfold writing Call.inTurn
  rw [Call.each_append, Call.onSuccess_assoc, Call.each_map, Call.each_map,
    funext fun e => post_eq hl e, funext fun d : Int × String => delete_eq hl d.1]

/-- **An update** lists, and then makes the writes that this calls for. -/
theorem update_eq (wanted : List Entry) : c.update context upstream wanted = .ask (.listAt l) fun a =>
    match listing context a with
    | .error e => .done (.error e)
    | .ok listed => (Call.inTurn (Reconcile.writes context l listed wanted)).onSuccess fun _ =>
        .done (.ok (Reconcile.changes listed wanted)) := by
  have hupdate : c.update context upstream wanted = (c.list context upstream).onSuccess fun listed =>
      c.writing context upstream (Reconcile.additions listed wanted) (Reconcile.removals listed wanted)
        (Reconcile.changes listed wanted) := rfl
  rw [hupdate, list_eq hl]
  refine congrArg (Call.ask _) (funext fun a => ?_)
  show Call.onSuccess (.done (listing context a)) _ = _
  cases listing context a with
  | error e => rfl
  | ok listed => exact writing_eq hl _ _ _

/-- **The removal of one server** lists, and then deletes the first entry with its address. -/
theorem remove_eq (server : String) : c.remove context upstream server = .ask (.listAt l) fun a =>
    match listing context a with
    | .error e => .done (.error e)
    | .ok listed =>
      match Reconcile.idOf? listed server with
      | none => .done (.error (.serverNotFound upstream server))
      | some id => Call.inTurn [.deleteAt l id] := by
  unfold remove
  rw [list_eq hl]
  refine congrArg (Call.ask _) (funext fun a => ?_)
  show Call.onSuccess (.done (listing context a)) _ = _
  cases listing context a with
  | error e => rfl
  | ok listed =>
    show (match Reconcile.idOf? listed server with
      | none => _
      | some id => c.delete context upstream id) = _
    simp only
    cases Reconcile.idOf? listed server with
    | none => rfl
    | some id => exact (delete_eq hl id).trans (Call.onSuccess_unit _).symm

end Client

/-! ## The agenda of an update -/

/-- The entries that an update wants. -/
def wantedEntries (u : Update) : List Entry :=
  u.servers.map fun a => { server := a }

/-- **The writes that an update calls for** once the entries are listed. -/
def agenda (context : Context) (l : Location) (u : Update) (listed : List Entry) : List Request :=
  match u.kind with
  | .deleted => ((u.servers.head?.bind (Reconcile.idOf? listed)).map (Request.deleteAt l)).toList
  | _ => Reconcile.writes context l listed (wantedEntries u)

/-- How an update ends once all that it calls for is granted. -/
def conclusion (u : Update) (listed : List Entry) : Except Error Unit :=
  match u.kind, u.servers with
  | .deleted, server :: _ =>
    if (Reconcile.idOf? listed server).isNone then .error (.serverNotFound u.upstream server) else .ok ()
  | _, _ => .ok ()

/-- Carrying out an update, as far as its result goes. -/
def carryOut (u : Update) : Call (Except Error Unit) :=
  (dispatch u).2.map Outcome.result

/-- Nobody carries out an update of an unknown client type. -/
theorem carryOut_of_unknown {u : Update} (h : Manager.context? u.clientType = none) :
    carryOut u = .done (.ok ()) := by
  unfold carryOut dispatch
  simp only [h]
  cases u.kind <;> rfl

/-- A deletion without a server fails at once. -/
theorem carryOut_of_serverless {u : Update} {context : Context}
    (hcontext : Manager.context? u.clientType = some context) (hkind : u.kind = .deleted)
    (hservers : u.servers = []) : carryOut u = .done (.error (.deleteWithoutServer u.upstream)) := by
  unfold carryOut dispatch applyDelete
  simp only [hcontext, hkind, hservers]
  rfl

theorem carryOut_update {u : Update} {context : Context}
    (hcontext : Manager.context? u.clientType = some context) (hkind : u.kind ≠ .deleted) :
    carryOut u = ((Client.new u.host).update context u.upstream (wantedEntries u)).map
      (fun r => (concluded context u r).result) := by
  unfold carryOut
  rw [dispatch_update hkind hcontext]
  exact Call.andThen_assoc _ _ _

theorem carryOut_delete {u : Update} {context : Context} {server : String} {others : List String}
    (hcontext : Manager.context? u.clientType = some context) (hkind : u.kind = .deleted)
    (hservers : u.servers = server :: others) :
    carryOut u = (Client.new u.host).remove context u.upstream server := by
  unfold carryOut dispatch applyDelete
  simp only [hcontext, hkind, hservers]
  refine (Call.andThen_assoc _ _ _).trans ?_
  generalize (Client.new u.host).remove context u.upstream server = call
  induction call with
  | done r => rfl
  | ask q next ih => exact congrArg (Call.ask q) (funext ih)

/-- **Carrying out an update** lists, and then makes the writes of its agenda. -/
theorem carryOut_eq {u : Update} {context : Context} {l : Location}
    (hcontext : Manager.context? u.clientType = some context)
    (hl : (Client.new u.host).serversAt context u.upstream none = .ok l)
    (hservers : u.kind = .deleted → u.servers ≠ []) :
    carryOut u = .ask (.listAt l) fun a =>
      match listing context a with
      | .error e => .done (.error e)
      | .ok listed => (Call.inTurn (agenda context l u listed)).onSuccess fun _ =>
          .done (conclusion u listed) := by
  by_cases hkind : u.kind = .deleted
  · obtain ⟨server, others, hcons⟩ := List.exists_cons_of_ne_nil (hservers hkind)
    rw [carryOut_delete hcontext hkind hcons, Client.remove_eq hl]
    refine congrArg (Call.ask _) (funext fun a => ?_)
    cases listing context a with
    | error e => rfl
    | ok listed =>
      simp only [agenda, conclusion, hkind, hcons, List.head?_cons, Option.bind_some]
      cases Reconcile.idOf? listed server with
      | none => rfl
      | some id => exact (Call.onSuccess_unit _).symm
  · have hagenda : ∀ listed, agenda context l u listed = Reconcile.writes context l listed (wantedEntries u) ∧
        conclusion u listed = .ok () := by
      intro listed
      unfold agenda conclusion
      cases hk : u.kind with
      | deleted => exact absurd hk hkind
      | created => exact ⟨rfl, rfl⟩
      | updated => exact ⟨rfl, rfl⟩
    rw [carryOut_update hcontext hkind, Client.update_eq hl]
    refine congrArg (Call.ask _) (funext fun a => ?_)
    beta_reduce
    cases listing context a with
    | error e => rfl
    | ok listed =>
      simp only [(hagenda listed).1, (hagenda listed).2]
      exact Call.map_onSuccess _ _ fun e => rfl

/-- Without a place to list nothing is asked. -/
theorem carryOut_of_unplaced {u : Update} {context : Context} {e : Error}
    (hcontext : Manager.context? u.clientType = some context)
    (hl : (Client.new u.host).serversAt context u.upstream none = .error e)
    (hservers : u.kind = .deleted → u.servers ≠ []) : carryOut u = .done (.error e) := by
  have hlist : (Client.new u.host).list context u.upstream = .done (.error e) := by
    unfold Client.list
    rw [hl]
    rfl
  by_cases hkind : u.kind = .deleted
  · obtain ⟨server, others, hcons⟩ := List.exists_cons_of_ne_nil (hservers hkind)
    rw [carryOut_delete hcontext hkind hcons]
    unfold Client.remove
    rw [hlist]
    rfl
  · rw [carryOut_update hcontext hkind]
    unfold Client.update
    rw [hlist]
    rfl

end BorderSync.Border
