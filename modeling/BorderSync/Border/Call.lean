/-
# BorderSync.Border.Call -- conversations with a border server

A conversation asks one request at a time and goes on according to the answer. It is data: a tree
whose nodes are requests. What sends the requests, how long answers take and who else is talking
are questions for whoever runs it.
-/
import BorderSync.Endpoint.Location
import BorderSync.Error

namespace BorderSync.Border

/-- What a request does. -/
inductive Method where
  | get
  | post
  | delete
  deriving DecidableEq, Repr

/-- The name of a method. -/
def Method.text : Method → String
  | .get => "GET"
  | .post => "POST"
  | .delete => "DELETE"

/-- **Request** to a border server. -/
structure Request where
  method : Method
  location : Endpoint.Location
  body : Option (List UInt8) := none
  deriving DecidableEq, Repr

/-- Status and body of an answer. Redirects are followed before it, by whoever sends the requests. -/
structure Response where
  status : Nat
  body : List UInt8
  deriving DecidableEq, Repr

/-- The answer says that the request was granted. -/
def Response.isSuccess (r : Response) : Bool :=
  decide (200 ≤ r.status ∧ r.status ≤ 299)

/-- What comes back for a request. -/
abbrev Answer := Except TransportFault Response

/-- **Conversation** with result in `ρ`. -/
inductive Call (ρ : Type) where
  | done (result : ρ)
  | ask (request : Request) (next : Answer → Call ρ)

namespace Call

variable {ρ σ : Type}

/-- Go on after a conversation. -/
def andThen : Call ρ → (ρ → Call σ) → Call σ
  | .done r, f => f r
  | .ask q next, f => .ask q fun a => (next a).andThen f

/-- Change the result of a conversation. -/
def map (f : ρ → σ) (c : Call ρ) : Call σ :=
  c.andThen fun r => .done (f r)

/-- Go on after a conversation that has not failed. -/
def onSuccess (c : Call (Except Error ρ)) (f : ρ → Call (Except Error σ)) :
    Call (Except Error σ) :=
  c.andThen fun
    | .ok r => f r
    | .error e => .done (.error e)

/-- A conversation that fails at once, or goes on. -/
def attempt (r : Except Error ρ) (f : ρ → Call (Except Error σ)) : Call (Except Error σ) :=
  match r with
  | .ok a => f a
  | .error e => .done (.error e)

/-- Conversations one after the other, up to the first failure. -/
def each {α : Type} (f : α → Call (Except Error Unit)) : List α → Call (Except Error Unit)
  | [] => .done (.ok ())
  | a :: rest => (f a).onSuccess fun _ => each f rest

end Call

end BorderSync.Border
