/-
# BorderSync.Error -- what can go wrong, by cause

Every failure of the library is one of these causes. `message` gives the words in which a cause is
reported. Failures that come from the transport to a border server, from the cluster or from the
discovery of the cluster are reported without their details.
-/
import BorderSync.Duration
import BorderSync.Endpoint.Host
import BorderSync.Text.Quoted
import BorderSync.Tls.Pem

namespace BorderSync

/-- Failures of files and sockets. -/
inductive OsFault where
  | noSuchFile
  | permissionDenied
  | notADirectory
  | isADirectory
  | nameTooLong
  | addressInUse
  | networkUnreachable
  /-- A name with a NUL character is refused before the system is asked. -/
  | nulInName
  deriving DecidableEq, Repr

namespace OsFault

/-- The number that the system gives to a fault. -/
def code? : OsFault → Option Nat
  | .noSuchFile => some 2
  | .permissionDenied => some 13
  | .notADirectory => some 20
  | .isADirectory => some 21
  | .nameTooLong => some 36
  | .addressInUse => some 98
  | .networkUnreachable => some 101
  | .nulInName => none

/-- The class of a fault. -/
def kind : OsFault → String
  | .noSuchFile => "NotFound"
  | .permissionDenied => "PermissionDenied"
  | .notADirectory => "NotADirectory"
  | .isADirectory => "IsADirectory"
  | .nameTooLong => "InvalidFilename"
  | .addressInUse => "AddrInUse"
  | .networkUnreachable => "NetworkUnreachable"
  | .nulInName => "InvalidInput"

/-- A fault in a few words. -/
def words : OsFault → String
  | .noSuchFile => "No such file or directory"
  | .permissionDenied => "Permission denied"
  | .notADirectory => "Not a directory"
  | .isADirectory => "Is a directory"
  | .nameTooLong => "File name too long"
  | .addressInUse => "Address already in use"
  | .networkUnreachable => "Network is unreachable"
  | .nulInName => "file name contained an unexpected NUL byte"

/-- All that is known of a fault. -/
def message (f : OsFault) : String :=
  (match f.code? with
    | some code => "Os \x7b code: " ++ toString code ++ ", "
    | none => "Error \x7b ")
  ++ "kind: " ++ f.kind ++ ", message: " ++ Text.quote f.words ++ " \x7d"

end OsFault

/-- How a request to a border server fails. -/
inductive TransportFault where
  | timeout
  | connect
  | unsupportedScheme
  | badBody
  | broken
  deriving DecidableEq, Repr

/-- How certificates and keys are refused when connections are set up. -/
inductive TlsFault where
  | badEncoding
  | unsupportedVersion
  | unknownKey
  | keyMismatch
  deriving DecidableEq, Repr

/-- The words for a refusal. -/
def TlsFault.message : TlsFault → String
  | .badEncoding => "InvalidCertificate(BadEncoding)"
  | .unsupportedVersion => "InvalidCertificate(Other(OtherError(UnsupportedCertVersion)))"
  | .unknownKey =>
    "General(" ++ Text.quote "failed to parse private key as RSA, ECDSA, or EdDSA" ++ ")"
  | .keyMismatch => "InconsistentKeys(KeyMismatch)"

/-- The items that a secured connection may need. -/
inductive Material where
  | caCertificate
  | clientCertificate
  | clientKey
  deriving DecidableEq, Repr

/-- The name of an item. -/
def Material.text : Material → String
  | .caCertificate => "CA certificate"
  | .clientCertificate => "client certificate"
  | .clientKey => "client key"

/-- Why certificates or keys cannot be read from their files. -/
inductive MaterialFault where
  | certificateFile (fault : Tls.Pem.Fault)
  | noCertificate
  | certificate (words : String)
  | keyFile (fault : Tls.Pem.Fault)
  deriving DecidableEq, Repr

/-- The words for a fault of a file. -/
def MaterialFault.message : MaterialFault → String
  | .certificateFile fault => "invalid certificate PEM: " ++ fault.message
  | .noCertificate => "no certificate found in PEM data"
  | .certificate words => "invalid certificate: " ++ words
  | .keyFile fault => "invalid private key PEM: " ++ fault.message

/-- **Error**: a failure, by cause. -/
inductive Error where
  | transport (fault : TransportFault)
  | cluster
  | noCluster
  | tls (fault : TlsFault)
  | os (fault : OsFault)
  | unknownTlsMode (name : String)
  | unknownClientType (name : String)
  | material (fault : MaterialFault)
  | missing (item : Material)
  | refused (status : Nat) (words : String)
  | serverNotFound (upstream server : String)
  | namelessService
  | jitterInverted (min max : Nat)
  | noWorkers
  | backoffInverted (queue : String) (base max : Duration)
  | badEndpoint (endpoint : String) (fault : Endpoint.Fault)
  | pathlessEndpoint (endpoint : String)
  | deleteWithoutServer (upstream : String)
  deriving DecidableEq, Repr

namespace Error

/-- A class of failures and a quoted explanation. -/
def tagged (tag words : String) : String :=
  tag ++ "(" ++ Text.quote words ++ ")"

/-- The words for causes that have no class of their own. -/
def custom? : Error → Option String
  | .jitterInverted min max =>
    some ("min jitter (" ++ toString min ++ "ms) is greater than max jitter (" ++ toString max ++ "ms)")
  | .noWorkers => some "worker thread counts must be at least 1"
  | .backoffInverted queue base max =>
    some (queue ++ ": rate limiter base " ++ base.text ++ " exceeds max " ++ max.text)
  | .badEndpoint endpoint fault =>
    some ("invalid NGINX Plus endpoint '" ++ endpoint ++ "': " ++ fault.message)
  | .pathlessEndpoint endpoint =>
    some ("NGINX Plus endpoint '" ++ endpoint ++ "' cannot carry a path")
  | .deleteWithoutServer upstream =>
    some ("delete of upstream '" ++ upstream ++ "' carries no server")
  | _ => none

/-- **The words for an error.** -/
def message (e : Error) : String :=
  match e with
  | .transport _ => "Http(..)"
  | .cluster => "Kube(..)"
  | .noCluster => "Infer(..)"
  | .tls fault => "Tls(" ++ fault.message ++ ")"
  | .os fault => "Io(" ++ fault.message ++ ")"
  | .unknownTlsMode name => tagged "UnknownTlsMode" name
  | .unknownClientType name => tagged "UnknownClientType" name
  | .material fault => tagged "Certificate" fault.message
  | .missing item => tagged "MissingCertificate" item.text
  | .refused status words =>
    "NginxApi \x7b status: " ++ toString status ++ ", message: " ++ Text.quote words ++ " \x7d"
  | .serverNotFound upstream server =>
    "ServerNotFound \x7b upstream: " ++ Text.quote upstream ++ ", server: " ++ Text.quote server
      ++ " \x7d"
  | .namelessService => tagged "Translation" "service has no metadata.name"
  | other => tagged "Custom" (other.custom?.getD "")

end Error

end BorderSync
