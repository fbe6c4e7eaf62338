/-
# BorderSync.Border.Script -- border servers that answer from a list

A scripted server gives one prepared answer per request and falls back to the plainest success when
none is left. An answer may take its time, or never come because the connection is closed. Requests
are logged as the server sees them.
-/
import BorderSync.Border.Call

namespace BorderSync.Border

/-- One prepared answer. -/
structure Prepared where
  response : Response
  delay : Nat := 0
  dropped : Bool := false
  deriving DecidableEq, Repr

/-- The conditions between client and server. -/
structure Line where
  /-- Milliseconds until a client gives up on a request. -/
  timeout : Option Nat := none
  unreachable : Bool := false
  deriving DecidableEq, Repr

namespace Prepared

/-- The answer to a request when none is prepared. -/
def plain : Method → Prepared
  | .get => ⟨⟨200, [0x5b, 0x5d]⟩, 0, false⟩
  | .post => ⟨⟨201, [0x7b, 0x7d]⟩, 0, false⟩
  | .delete => ⟨⟨200, [0x5b, 0x5d]⟩, 0, false⟩

/-- The body that reaches the client: two statuses never have one. -/
def arriving (r : Response) : Response :=
  if r.status = 204 ∨ r.status = 304 then { r with body := [] } else r

/-- What comes back, and after how many milliseconds. -/
def outcome (line : Line) (p : Prepared) : Answer × Nat :=
  match line.timeout with
  | some limit =>
    if limit ≤ p.delay then (.error .timeout, limit)
    else (if p.dropped then .error .broken else .ok (arriving p.response), p.delay)
  | none => (if p.dropped then .error .broken else .ok (arriving p.response), p.delay)

end Prepared

/-- The failure of a request that never reaches a server. -/
def unsentFault? (line : Line) (q : Request) : Option TransportFault :=
  if q.location.scheme = "http" then if line.unreachable then some .connect else none
  else if q.location.scheme = "https" then some .connect
  else some .unsupportedScheme

/-- The next prepared answer, and those left. -/
def nextPrepared (m : Method) : List Prepared → Prepared × List Prepared
  | [] => (Prepared.plain m, [])
  | p :: rest => (p, rest)

/-- What a conversation has led to: the result if it ended in time, the requests the server saw,
the answers left and the time it took. -/
structure Played (ρ : Type) where
  result : Option ρ
  requests : List Request
  script : List Prepared
  elapsed : Nat

/-- Milliseconds after which a conversation is given up. -/
def patience : Nat := 3600000

/-- **Play a conversation** against a script; `elapsed` milliseconds have passed. -/
def Call.play {ρ : Type} (line : Line) (script : List Prepared) (elapsed : Nat) :
    Call ρ → Played ρ
  | .done r => ⟨if elapsed ≤ patience then some r else none, [], script, elapsed⟩
  | .ask q next =>
    if patience < elapsed then ⟨none, [], script, elapsed⟩
    else
      match unsentFault? line q with
      | some fault => (next (.error fault)).play line script elapsed
      | none =>
        let (p, rest) := nextPrepared q.method script
        let (answer, millis) := p.outcome line
        let played := (next answer).play line rest (elapsed + millis)
        { played with requests := q :: played.requests }

end BorderSync.Border
