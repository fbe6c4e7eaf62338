/-
# BorderSync.Settings.FromArguments -- settings of a run from its arguments

The mode is read first, then the three certificate files in their order; then the settings are
checked for consistency. The first failure counts.
-/
import BorderSync.Settings.Basic

namespace BorderSync

/-- **Arguments** of a run, after reading. -/
structure Arguments where
  hosts : String
  tlsMode : String
  caCertificate : Option String
  clientCertificate : Option String
  clientKey : Option String
  inboundRetryCount : Nat
  inboundThreads : Nat
  inboundBase : Nat
  inboundMax : Nat
  outboundRetryCount : Nat
  outboundThreads : Nat
  outboundBase : Nat
  outboundMax : Nat
  minJitter : Nat
  maxJitter : Nat
  labelSelector : Option String
  healthPort : Nat
  requestTimeoutSecs : Nat
  logLevel : String
  deriving DecidableEq, Repr

namespace Settings

/-- The content of a file, if a path is given. -/
def readFile? (read : String → Except OsFault (List UInt8)) :
    Option String → Except Error (Option (List UInt8))
  | none => .ok none
  | some path =>
    match read path with
    | .ok content => .ok (some content)
    | .error fault => .error (.os fault)

/-- The settings that arguments ask for, given mode and files. -/
def assemble (a : Arguments) (mode : TlsMode) (certificates : Certificates) : Settings where
  hosts := parseHosts a.hosts
  tlsMode := mode
  certificates := certificates
  inbound := {
    retryCount := a.inboundRetryCount
    threads := a.inboundThreads
    queue := ⟨"nlk-handler", .ofMillis a.inboundBase, .ofMillis a.inboundMax⟩ }
  outbound := {
    retryCount := a.outboundRetryCount
    threads := a.outboundThreads
    minJitter := a.minJitter
    maxJitter := a.maxJitter
    queue := ⟨"nlk-synchronizer", .ofMillis a.outboundBase, .ofMillis a.outboundMax⟩ }
  labelSelector := a.labelSelector
  healthPort := a.healthPort
  requestTimeout := .ofSecs a.requestTimeoutSecs

/-- **The settings that arguments ask for**, with files read by `read`. -/
def ofArguments (read : String → Except OsFault (List UInt8)) (a : Arguments) :
    Except Error Settings := do
  let mode ← TlsMode.ofName a.tlsMode
  let ca ← readFile? read a.caCertificate
  let client ← readFile? read a.clientCertificate
  let key ← readFile? read a.clientKey
  (assemble a mode ⟨ca, client, key⟩).validated

end Settings

end BorderSync
