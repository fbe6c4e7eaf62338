/-
# BorderSync.Border.Entry -- server entries as a border server lists and takes them

An upstream holds server entries. HTTP and stream upstreams describe them alike, except that only
HTTP entries have a fail timeout. An entry is written as an object that has a key for exactly the
fields that are there; it is read from such an object, in which unknown keys play no part and known
ones occur once, or from the array of all its fields in order.
-/
import BorderSync.Json.Reader

namespace BorderSync.Border

/-- The two kinds of upstream. -/
inductive Context where
  | http
  | stream
  deriving DecidableEq, Repr

/-- The name of a context in paths. -/
def Context.text : Context → String
  | .http => "http"
  | .stream => "stream"

/-- **Server entry** of an upstream. -/
structure Entry where
  id : Option Int := none
  server : String
  weight : Option Int := none
  maxFails : Option Int := none
  failTimeout : Option String := none
  down : Option Bool := none
  deriving DecidableEq, Repr

namespace Entry

open Json (Value)

/-- The keys of an entry, in writing order. -/
def keys : Context → List String
  | .http => ["id", "server", "weight", "max_fails", "fail_timeout", "down"]
  | .stream => ["id", "server", "weight", "max_fails", "down"]

/-! ## Writing -/

/-- A member that is there only if its value is. -/
def member {α : Type} (key : String) (write : α → Value) : Option α → List (List UInt8 × Value)
  | none => []
  | some a => [(Json.octets key, write a)]

/-- An entry as a JSON object. -/
def toJson (context : Context) (e : Entry) : Value :=
  .object <|
    member "id" Value.ofInt e.id
    ++ [(Json.octets "server", Value.ofText e.server)]
    ++ member "weight" Value.ofInt e.weight
    ++ member "max_fails" Value.ofInt e.maxFails
    ++ (match context with
        | .http => member "fail_timeout" Value.ofText e.failTimeout
        | .stream => [])
    ++ member "down" Value.bool e.down

/-- The octets of an entry. -/
def encode (context : Context) (e : Entry) : List UInt8 :=
  (e.toJson context).render

/-! ## Reading -/

/-- The members of an object by the meaning of their keys. -/
def named? (members : List (List UInt8 × Value)) : Option (List (String × Value)) :=
  members.mapM fun m => (Json.meaning? m.1).map fun k => (k, m.2)

/-- No key of the list occurs twice. -/
def onceEach (known : List String) (members : List (String × Value)) : Bool :=
  known.all fun k => (members.filter fun m => m.1 == k).length ≤ 1

/-- The value of a key; a missing one reads as `null`. -/
def valueOf (members : List (String × Value)) (key : String) : Value :=
  (members.lookup key).getD .null

/-- An entry from its field values. -/
def ofFields? (id server weight maxFails failTimeout down : Value) : Option Entry := do
  return {
    id := ← id.optional Value.int?
    server := ← server.text?
    weight := ← weight.optional Value.int?
    maxFails := ← maxFails.optional Value.int?
    failTimeout := ← failTimeout.optional Value.text?
    down := ← down.optional Value.bool? }

/-- Read one entry. -/
def ofJson? (context : Context) : Value → Option Entry
  | .object members => do
    let ms ← named? members
    if onceEach (keys context) ms then
      let failTimeout := match context with
        | .http => valueOf ms "fail_timeout"
        | .stream => .null
      ofFields? (valueOf ms "id") (valueOf ms "server") (valueOf ms "weight")
        (valueOf ms "max_fails") failTimeout (valueOf ms "down")
    else none
  | .array items =>
    match context, items with
    | .http, [id, server, weight, maxFails, failTimeout, down] =>
      ofFields? id server weight maxFails failTimeout down
    | .stream, [id, server, weight, maxFails, down] =>
      ofFields? id server weight maxFails .null down
    | _, _ => none
  | _ => none

/-- Read a list of entries. -/
def listOfJson? (context : Context) : Value → Option (List Entry)
  | .array items => items.mapM (ofJson? context)
  | _ => none

/-- **Read the octets of a list of entries.** -/
def decodeList? (context : Context) (body : List UInt8) : Option (List Entry) :=
  (Value.read? body).bind (listOfJson? context)

/-- Read the octets of one entry. -/
def decode? (context : Context) (body : List UInt8) : Option Entry :=
  (Value.read? body).bind (ofJson? context)

end Entry

end BorderSync.Border
