/-
# BorderSync.Border.Client -- managing the servers of an upstream

The client knows one endpoint. It lists the servers of an upstream, brings them in line with a
wanted list, or removes one of them. Each of these is a conversation; the first failure ends it.
-/
import BorderSync.Border.Call
import BorderSync.Border.Reconcile
import BorderSync.Border.Refusal
import BorderSync.Endpoint.Reading

namespace BorderSync.Border

/-- **Client** of the border server at an endpoint. -/
structure Client where
  endpoint : String
  deriving DecidableEq, Repr

/-- What an update has changed, by address. -/
structure Changes where
  added : List String := []
  deleted : List String := []
  deriving DecidableEq, Repr

namespace Client

/-- A client; slashes at the end of the endpoint play no part. -/
def new (endpoint : String) : Client :=
  ⟨String.ofList (Text.dropEndWhile (· == '/') endpoint.toList)⟩

/-- The version of the interface. -/
def apiVersion : String := "8"

/-- The segments of the place where the servers of an upstream, or one of them, are managed. -/
def serverSegments (context : Context) (upstream : String) (id : Option Int) : List String :=
  [apiVersion, context.text, "upstreams", upstream, "servers"] ++ (id.map toString).toList

/-- The place where the servers of an upstream, or one of them, are managed, for any reader of endpoints. -/
def placeBy (read : Endpoint.Reader) (c : Client) (context : Context) (upstream : String)
    (id : Option Int) : Except Error Endpoint.Location :=
  match read c.endpoint with
  | .error fault => .error (.badEndpoint c.endpoint fault)
  | .ok .pathless => .error (.pathlessEndpoint c.endpoint)
  | .ok (.place l) => .ok (l.below (serverSegments context upstream id))

/-- **The place** where the servers of an upstream, or one of them, are managed. -/
def serversAt (c : Client) (context : Context) (upstream : String) (id : Option Int) :
    Except Error Endpoint.Location :=
  c.placeBy Endpoint.read context upstream id

/-- Ask a request; an answer that grants nothing is a failure. -/
def granted (q : Request) : Call (Except Error Response) :=
  .ask q fun
    | .error fault => .done (.error (.transport fault))
    | .ok r =>
      if r.isSuccess then .done (.ok r)
      else .done (.error (.refused r.status (Refusal.message r.body)))

/-- **List** the servers of an upstream. -/
def list (c : Client) (context : Context) (upstream : String) :
    Call (Except Error (List Entry)) :=
  .attempt (c.serversAt context upstream none) fun location =>
    (granted { method := .get, location := location }).onSuccess fun r =>
      match Entry.decodeList? context r.body with
      | some entries => .done (.ok entries)
      | none => .done (.error (.transport .badBody))

/-- Add one server. -/
def post (c : Client) (context : Context) (upstream : String) (e : Entry) :
    Call (Except Error Unit) :=
  .attempt (c.serversAt context upstream none) fun location =>
    (granted { method := .post, location := location, body := some (e.encode context) }).onSuccess
      fun _ => .done (.ok ())

/-- Delete one server. -/
def delete (c : Client) (context : Context) (upstream : String) (id : Int) :
    Call (Except Error Unit) :=
  .attempt (c.serversAt context upstream (some id)) fun location =>
    (granted { method := .delete, location := location }).onSuccess fun _ => .done (.ok ())

/-- **Update** an upstream to hold exactly the wanted servers. -/
def update (c : Client) (context : Context) (upstream : String) (wanted : List Entry) :
    Call (Except Error Changes) :=
  (c.list context upstream).onSuccess fun listed =>
    let additions := Reconcile.additions listed wanted
    let removals := Reconcile.removals listed wanted
    (Call.each (c.post context upstream) additions).onSuccess fun _ =>
      (Call.each (fun r => c.delete context upstream r.1) removals).onSuccess fun _ =>
        .done (.ok ⟨additions.map Entry.server, removals.map Prod.snd⟩)

/-- **Remove** one server from an upstream. -/
def remove (c : Client) (context : Context) (upstream server : String) :
    Call (Except Error Unit) :=
  (c.list context upstream).onSuccess fun listed =>
    match Reconcile.idOf? listed server with
    | none => .done (.error (.serverNotFound upstream server))
    | some id => c.delete context upstream id

end Client

end BorderSync.Border
