/-
# BorderSync.Tls.Configuration -- what a secured connection needs

Each mode needs some of three items: the authority's certificate, the client's certificate and the
client's key. They are looked at in this order, and only those that the mode needs. Which octets are
acceptable as such items is a matter of its own, `Acceptance`; `Acceptance.standard` is the one in
use.
-/
import BorderSync.Log
import BorderSync.Settings.Basic
import BorderSync.Tls.Certificate
import BorderSync.Tls.Key

namespace BorderSync.Tls

/-- **Acceptance**: which octets are certificates and keys, and which of them can be used. -/
structure Acceptance where
  /-- The entries of a certificate file, one after the other; those that cannot be read are faults. -/
  entries : List UInt8 → List (Except Pem.Fault (List UInt8))
  /-- Why an entry is no certificate. -/
  certificateFault? : List UInt8 → Option String
  /-- The private key of a key file. -/
  key : List UInt8 → Except Pem.Fault Pem.PrivateKey
  /-- Why a certificate cannot be an authority. -/
  rootFault? : List UInt8 → Option TlsFault
  /-- Why a chain and a key cannot identify a client. -/
  pairFault? : List (List UInt8) → Pem.PrivateKey → Option TlsFault

namespace Acceptance

/-- The certificates of a file: at least one, and each of the entries must be one. -/
def certificates (a : Acceptance) (file : List UInt8) : Except MaterialFault (List (List UInt8)) :=
  match (a.entries file).mapM id with
  | .error fault => .error (.certificateFile fault)
  | .ok [] => .error .noCertificate
  | .ok certificates =>
    match certificates.findSome? a.certificateFault? with
    | some words => .error (.certificate words)
    | none => .ok certificates

/-- The private key of a file. -/
def privateKey (a : Acceptance) (file : List UInt8) : Except MaterialFault Pem.PrivateKey :=
  match a.key file with
  | .error fault => .error (.keyFile fault)
  | .ok key => .ok key

end Acceptance

/-- Whom a client takes for the server that it wants. -/
inductive Trust where
  | anyone
  | publicRoots
  | roots (certificates : List (List UInt8))
  deriving DecidableEq, Repr

/-- What a client identifies itself by. -/
structure Identity where
  chain : List (List UInt8)
  key : Pem.PrivateKey
  deriving DecidableEq, Repr

/-- **Configuration** of secured connections. -/
structure Configuration where
  trust : Trust
  identity : Option Identity
  deriving DecidableEq, Repr

/-- The client identifies itself. -/
def Configuration.clientAuth (k : Configuration) : Bool :=
  k.identity.isSome

/-- An item that must be there. -/
def required (item : Material) : Option (List UInt8) → Except Error (List UInt8)
  | none => .error (.missing item)
  | some bytes => .ok bytes

/-- An outcome in terms of the library's errors. -/
def materialResult {α : Type} : Except MaterialFault α → Except Error α
  | .ok a => .ok a
  | .error fault => .error (.material fault)

/-- A check in terms of the library's errors. -/
def checkResult : Option TlsFault → Except Error Unit
  | none => .ok ()
  | some fault => .error (.tls fault)

/-- Accept the authority's certificates. -/
def acceptRoots (a : Acceptance) (ca : Option (List UInt8)) : Except Error (List (List UInt8)) := do
  let file ← required .caCertificate ca
  let certificates ← materialResult (a.certificates file)
  checkResult (certificates.findSome? a.rootFault?)
  return certificates

/-- Accept the client's certificate and key. -/
def acceptClient (a : Acceptance) (client key : Option (List UInt8)) : Except Error Identity := do
  let file ← required .clientCertificate client
  let chain ← materialResult (a.certificates file)
  let keyFile ← required .clientKey key
  let key ← materialResult (a.privateKey keyFile)
  checkResult (a.pairFault? chain key)
  return ⟨chain, key⟩

/-- Whom a mode trusts. -/
def trustOf (a : Acceptance) (mode : TlsMode) (ca : Option (List UInt8)) : Except Error Trust :=
  if mode.usesCa then Trust.roots <$> acceptRoots a ca
  else .ok (if mode = .noTls then .anyone else .publicRoots)

/-- What a mode lets the client identify itself by. -/
def identityOf (a : Acceptance) (mode : TlsMode) (client key : Option (List UInt8)) :
    Except Error (Option Identity) :=
  if mode.usesClient then some <$> acceptClient a client key else .ok none

/-- **The configuration of a mode.** -/
def configure (a : Acceptance) (mode : TlsMode) (c : Certificates) : Except Error Configuration := do
  let trust ← trustOf a mode c.ca
  let identity ← identityOf a mode c.client c.key
  return ⟨trust, identity⟩

/-- The report about a configuration. -/
def configuredReport (mode : TlsMode) : Report :=
  .info ("🔐 TLS configured: " ++ mode.text)

namespace Acceptance

/-- Why octets are no certificate. -/
def outlineFault? (c : List UInt8) : Option String :=
  match Certificate.read c with
  | .ok _ => none
  | .error fault => some fault.message

/-- Nothing may follow the certificate of an authority. -/
def trailingFault? (c : List UInt8) : Option TlsFault :=
  match Certificate.read c with
  | .ok cert => if cert.trailing.isEmpty then none else some .badEncoding
  | .error _ => some .badEncoding

/-- The key must belong to the first certificate of the chain. -/
def mismatch? (chain : List (List UInt8)) (key : Pem.PrivateKey) : Option TlsFault :=
  match Key.publicHalf? key with
  | none => some .unknownKey
  | some half =>
    match chain with
    | [] => some .badEncoding
    | leaf :: _ =>
      match Certificate.read leaf with
      | .error _ => some .badEncoding
      | .ok cert =>
        if !cert.trailing.isEmpty then some .badEncoding
        else if cert.version ≠ 3 then some .unsupportedVersion
        else if half = cert.publicKey then none
        else some .keyMismatch

/-- The acceptance in use. -/
def standard : Acceptance :=
  ⟨Pem.certificates, outlineFault?, Pem.privateKey, trailingFault?, mismatch?⟩

end Acceptance

end BorderSync.Tls
