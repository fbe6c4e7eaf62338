/-
# BorderSync.Settings.Basic -- what a run can be told, and which combinations make sense

Settings are read once and never change. `validate?` names the first inconsistency: the jitter
bounds, then the numbers of workers, then the backoff bounds of the two queues.
-/
import BorderSync.Error
import BorderSync.Text.Blank

namespace BorderSync

/-- How connections to border servers are secured. -/
inductive TlsMode where
  | noTls
  | caTls
  | caMutualTls
  | selfSignedTls
  | selfSignedMutualTls
  deriving DecidableEq, Repr

namespace TlsMode

/-- The name of a mode in reports. -/
def text : TlsMode → String
  | .noTls => "NoTls"
  | .caTls => "CaTls"
  | .caMutualTls => "CaMutualTls"
  | .selfSignedTls => "SelfSignedTls"
  | .selfSignedMutualTls => "SelfSignedMutualTls"

/-- The names by which modes are chosen. -/
def names : List (String × TlsMode) :=
  [("no-tls", .noTls), ("ca-tls", .caTls), ("ca-mtls", .caMutualTls), ("ss-tls", .selfSignedTls),
   ("ss-mtls", .selfSignedMutualTls)]

/-- **The mode that a name chooses**; case and surrounding white space play no part. -/
def ofName (raw : String) : Except Error TlsMode :=
  let name := Text.lower (Text.trim raw)
  match names.lookup name with
  | some mode => .ok mode
  | none => .error (.unknownTlsMode name)

/-- The mode checks servers against a private authority. -/
def usesCa : TlsMode → Bool
  | .selfSignedTls | .selfSignedMutualTls => true
  | _ => false

/-- The mode presents a client certificate. -/
def usesClient : TlsMode → Bool
  | .caMutualTls | .selfSignedMutualTls => true
  | _ => false

end TlsMode

/-- Contents of the certificate files, as far as they are given. -/
structure Certificates where
  ca : Option (List UInt8) := none
  client : Option (List UInt8) := none
  key : Option (List UInt8) := none
  deriving DecidableEq, Repr

/-- Name and backoff bounds of a queue. -/
structure QueueSettings where
  name : String
  base : Duration
  max : Duration
  deriving DecidableEq, Repr

/-- Settings of the inbound side. The retry count is kept for later use. -/
structure InboundSettings where
  retryCount : Nat := 5
  threads : Nat := 1
  queue : QueueSettings := ⟨"nlk-handler", .ofMillis 200, .ofMillis 60000⟩
  deriving DecidableEq, Repr

/-- Settings of the outbound side. -/
structure OutboundSettings where
  retryCount : Nat := 5
  threads : Nat := 1
  minJitter : Nat := 10
  maxJitter : Nat := 750
  queue : QueueSettings := ⟨"nlk-synchronizer", .ofMillis 500, .ofMillis 60000⟩
  deriving DecidableEq, Repr

/-- **Settings** of a run. -/
structure Settings where
  hosts : List String := []
  tlsMode : TlsMode := .noTls
  certificates : Certificates := {}
  inbound : InboundSettings := {}
  outbound : OutboundSettings := {}
  labelSelector : Option String := none
  healthPort : Nat := 51031
  requestTimeout : Duration := .ofSecs 10
  deriving DecidableEq, Repr

namespace Settings

/-- **The hosts of a list with commas between them**: trimmed, in order, without blank ones. -/
def parseHosts (raw : String) : List String :=
  (((Text.splitOnChar ',' raw.toList).map Text.trimChars).filter fun h => !h.isEmpty).map
    String.ofList

/-- What is wrong with the backoff bounds of a queue. -/
def backoffError? (q : QueueSettings) : Option Error :=
  if q.max.nanos < q.base.nanos then some (.backoffInverted q.name q.base q.max) else none

/-- **The first inconsistency** of settings. -/
def validate? (s : Settings) : Option Error :=
  if s.outbound.maxJitter < s.outbound.minJitter then
    some (.jitterInverted s.outbound.minJitter s.outbound.maxJitter)
  else if s.inbound.threads = 0 ∨ s.outbound.threads = 0 then some .noWorkers
  else backoffError? s.inbound.queue <|> backoffError? s.outbound.queue

/-- Settings that are consistent. -/
def validated (s : Settings) : Except Error Settings :=
  match s.validate? with
  | some e => .error e
  | none => .ok s

end Settings

end BorderSync
