/-
# BorderSync.Probe.Basic -- liveness, readiness and startup

Whoever runs the program asks it three questions by path. It is alive as long as it answers; it is
ready and started once the initial state of the cluster was seen.
-/
import BorderSync.Error

namespace BorderSync.Probe

/-- What is known when a probe arrives. -/
structure Health where
  ready : Bool := false
  started : Bool := false
  deriving DecidableEq, Repr

namespace Health

/-- An answer means life. -/
def live (_h : Health) : Bool := true

/-- The initial state of the cluster was seen. -/
def markReady (_h : Health) : Health := ⟨true, true⟩

end Health

/-- Status and body of an answer. -/
structure Reply where
  status : Nat
  body : String
  deriving DecidableEq, Repr

/-- The answer to a question. -/
def verdict (passed : Bool) : Reply :=
  if passed then ⟨200, "OK"⟩ else ⟨503, "Service Not Available"⟩

/-- **The answer to a path.** -/
def route (h : Health) (path : String) : Reply :=
  if path = "/livez" then verdict h.live
  else if path = "/readyz" then verdict h.ready
  else if path = "/startupz" then verdict h.started
  else ⟨404, "Not Found"⟩

/-- The network that a probe server finds: whether its port is free, and whether clients on the
same machine can reach it. -/
structure Network where
  portTaken : Bool := false
  loopback : Bool := true
  deriving DecidableEq, Repr

/-- Serve until told to stop, which the server is at once. -/
def serve (n : Network) : Except Error Unit :=
  if n.portTaken then .error (.os .addressInUse) else .ok ()

/-- A client on the same machine asks for a path. -/
def ask (n : Network) (h : Health) (path : String) : Except OsFault Reply :=
  if n.loopback then .ok (route h path) else .error .networkUnreachable

end BorderSync.Probe
