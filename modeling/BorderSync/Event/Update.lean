/-
# BorderSync.Event.Update -- what one upstream of one border server should hold

An update names an upstream, the kind of client that manages it and the servers it should hold.
It becomes work for a particular border server when it is addressed to a host and gets an id.
-/
import BorderSync.Event.Change
import BorderSync.Text.Quoted

namespace BorderSync.Event

/-- **Update** of one upstream; `id` and `host` are empty until it is addressed. -/
structure Update where
  kind : Kind
  upstream : String
  clientType : String
  servers : List String
  id : String := ""
  host : String := ""
  deriving DecidableEq, Repr

namespace Update

/-- The same update, addressed to one border server. -/
def addressed (u : Update) (id host : String) : Update :=
  { u with id := id, host := host }

/-- One line that says what the update is about. -/
def summary (u : Update) : String :=
  u.kind.text ++ " " ++ u.clientType ++ " upstream '" ++ u.upstream ++ "' on '" ++ u.host
    ++ "' (" ++ toString u.servers.length ++ " servers)"

/-- A server as it is shown inside `describe`. -/
def describeServer (host : String) : String :=
  "UpstreamServer \x7b host: " ++ Text.quote host ++ " \x7d"

/-- All fields of an update, for the warnings that give it up. -/
def describe (u : Update) : String :=
  "ServerUpdateEvent \x7b client_type: " ++ Text.quote u.clientType
    ++ ", id: " ++ Text.quote u.id
    ++ ", nginx_host: " ++ Text.quote u.host
    ++ ", event_type: " ++ u.kind.text
    ++ ", upstream_name: " ++ Text.quote u.upstream
    ++ ", upstream_servers: " ++ Text.bracketed (u.servers.map describeServer) ++ " \x7d"

end Update

end BorderSync.Event
