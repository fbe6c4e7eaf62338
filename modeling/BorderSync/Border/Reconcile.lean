/-
# BorderSync.Border.Reconcile -- the difference between what is listed and what is wanted

To turn the listed entries of an upstream into the wanted ones, the wanted addresses that are not
listed are added, each once, and the listed entries whose address is not wanted are deleted by
their ids. An entry without id cannot be deleted and stays.
-/
import BorderSync.Border.Entry

namespace BorderSync.Border.Reconcile

/-- Entries with different addresses, the first of each; addresses in `seen` had theirs. -/
def firstOfEach (seen : List String) : List Entry → List Entry
  | [] => []
  | e :: rest =>
    if seen.contains e.server then firstOfEach seen rest
    else e :: firstOfEach (e.server :: seen) rest

/-- The entry as it is added: the server gives the id. -/
def withoutId (e : Entry) : Entry :=
  { e with id := none }

/-- **What is added**, in order of first occurrence. -/
def additions (listed wanted : List Entry) : List Entry :=
  (firstOfEach [] (wanted.filter fun w => !(listed.any fun l => l.server == w.server))).map withoutId

/-- The id and address of an entry that can be deleted. -/
def removable? (e : Entry) : Option (Int × String) :=
  e.id.map fun i => (i, e.server)

/-- **What is deleted**, in list order. -/
def removals (listed wanted : List Entry) : List (Int × String) :=
  (listed.filter fun l => !(wanted.any fun w => w.server == l.server)).filterMap removable?

/-- The id of the first entry with an address, if it has one. -/
def idOf? (listed : List Entry) (server : String) : Option Int :=
  (listed.find? fun l => l.server == server).bind Entry.id

end BorderSync.Border.Reconcile
