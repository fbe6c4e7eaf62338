/-
# BorderSync.Border.Dispatch -- carrying out an update

The client type of an update decides how it is carried out: on an HTTP upstream, on a stream
upstream, or not at all. An update that cannot be carried out for want of a client counts as done,
with a warning.
-/
import BorderSync.Border.Client
import BorderSync.Event.Update
import BorderSync.Log

namespace BorderSync.Border

/-- How updates of a client type are carried out. -/
inductive Manager where
  | upstreams (context : Context)
  | nothing
  deriving DecidableEq, Repr

namespace Manager

/-- The context that a client type manages. -/
def context? (clientType : String) : Option Context :=
  if clientType = "http" then some .http
  else if clientType = "stream" then some .stream
  else none

/-- **The manager of a client type**; an unknown type is an error. -/
def ofType (clientType : String) : Except Error Manager :=
  match context? clientType with
  | some context => .ok (.upstreams context)
  | none => .error (.unknownClientType clientType)

/-- The words for an unknown client type. -/
def unknownText (clientType : String) : String :=
  "unknown border client type: " ++ clientType

/-- The name of a manager in reports. -/
def text : Manager → String
  | .upstreams .http => "HttpBorderClient"
  | .upstreams .stream => "StreamBorderClient"
  | .nothing => "NullBorderClient"

end Manager

/-- How carrying out an update has ended. -/
structure Outcome where
  result : Except Error Unit
  reports : List Report

/-- The report about an upstream that was brought in line. -/
def updatedReport (context : Context) (u : Event.Update) (c : Changes) : Report :=
  .info ((Manager.upstreams context).text ++ "::update: upstream '" ++ u.upstream ++ "' on " ++ u.host
    ++ " (added " ++ Text.quoteList c.added ++ ", deleted " ++ Text.quoteList c.deleted ++ ")")

/-- The warning about an update that nobody can carry out. -/
def ignoredReport (deletes : Bool) (u : Event.Update) : Report :=
  .warn (if deletes then
      "NullBorderClient::delete: no client for type '" ++ u.clientType
        ++ "', ignoring delete from upstream '" ++ u.upstream ++ "'"
    else
      "NullBorderClient::update: no client for type '" ++ u.clientType
        ++ "', ignoring update of upstream '" ++ u.upstream ++ "'")

/-- Bring an upstream in line with the servers of an update. -/
def applyUpdate (client : Client) (m : Manager) (u : Event.Update) : Call Outcome :=
  match m with
  | .nothing => .done ⟨.ok (), [ignoredReport false u]⟩
  | .upstreams context =>
    (client.update context u.upstream (u.servers.map fun s => { server := s })).map fun
      | .ok changes => ⟨.ok (), [updatedReport context u changes]⟩
      | .error e => ⟨.error e, []⟩

/-- Remove the first server of an update from its upstream. -/
def applyDelete (client : Client) (m : Manager) (u : Event.Update) : Call Outcome :=
  match m with
  | .nothing => .done ⟨.ok (), [ignoredReport true u]⟩
  | .upstreams context =>
    match u.servers with
    | [] => .done ⟨.error (.deleteWithoutServer u.upstream), []⟩
    | server :: _ => (client.remove context u.upstream server).map fun r => ⟨r, []⟩

/-- The warning about an unknown client type. -/
def fallbackReport (u : Event.Update) : Report :=
  .warn ("Synchronizer: " ++ Manager.unknownText u.clientType ++ ", using the null client")

/-- **Carry out an update** on the border server it is addressed to. The reports that come before
the conversation are given apart. -/
def dispatch (u : Event.Update) : List Report × Call Outcome :=
  let client := Client.new u.host
  let (early, manager) := match Manager.context? u.clientType with
    | some context => ([], Manager.upstreams context)
    | none => ([fallbackReport u], Manager.nothing)
  (early,
    match u.kind with
    | .created | .updated => applyUpdate client manager u
    | .deleted => applyDelete client manager u)

end BorderSync.Border
