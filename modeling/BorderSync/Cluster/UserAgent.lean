/-
# BorderSync.Cluster.UserAgent -- how the program introduces itself

Requests carry a header that names the program. A name that cannot stand in a header is left out
with a warning.
-/
import BorderSync.Log

namespace BorderSync.UserAgent

/-- The name and version of this program. -/
def ownName : String := "edgesync/0.4.2"

/-- The header that carries the name. -/
def header : String := "user-agent"

/-- An octet that a header may hold: visible ones, blanks and all beyond ASCII. -/
def allowedOctet (b : UInt8) : Bool :=
  b == 0x09 || (0x20 ≤ b && b != 0x7f)

/-- The text can stand in a header. -/
def isAllowed (agent : String) : Bool :=
  agent.toUTF8.toList.all allowedOctet

/-- **Add a name** to a list of headers, if there is one and it is allowed. -/
def add (headers : List (String × String)) (agent : Option String) :
    List (String × String) × List Report :=
  match agent with
  | none => (headers, [])
  | some a =>
    if isAllowed a then (headers ++ [(header, a)], [])
    else
      (headers, [.warn ("Ignoring invalid user agent '" ++ a ++ "': failed to parse header value")])

end BorderSync.UserAgent
