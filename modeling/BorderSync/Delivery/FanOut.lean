/-
# BorderSync.Delivery.FanOut -- one copy of every update for every border server

Updates are copied to each host. A copy differs from its update in its host and in its id, which
names the pair of indices it comes from.
-/
import BorderSync.Event.Id
import BorderSync.Event.Update
import BorderSync.Log

namespace BorderSync.Delivery

open Event

/-- The copy of an update for a host. -/
def copyFor (token : Nat → Nat → String) (host : Nat × String) (update : Nat × Update) : Update :=
  update.2.addressed
    (Id.text host.1 update.1 (token host.1 update.1) update.2.upstream host.2) host.2

/-- Items with their indices. -/
def indexed {α : Type} (xs : List α) : List (Nat × α) :=
  xs.zipIdx.map fun p => (p.2, p.1)

/-- **All copies**, host by host; `token` gives the token for a pair of indices. -/
def copies (hosts : List String) (updates : List Update) (token : Nat → Nat → String) :
    List Update :=
  (indexed hosts).flatMap fun h => (indexed updates).map (copyFor token h)

/-- Tokens that follow one another, from the `first` on. -/
def consecutiveTokens (first count : Nat) (hostIndex updateIndex : Nat) : String :=
  Id.token (first + hostIndex * count + updateIndex)

/-- The warning about updates that have nowhere to go. -/
def noHostsReport (updates : List Update) : Report :=
  .warn ("Synchronizer::add_events: no NGINX Plus hosts configured, dropping "
    ++ toString updates.length ++ " events")

/-- The warning about an update that is addressed to nobody. -/
def noHostReport (u : Update) : Report :=
  .warn ("Synchronizer::add_event: event " ++ u.id ++ " has no NGINX host, dropping: " ++ u.describe)

end BorderSync.Delivery
