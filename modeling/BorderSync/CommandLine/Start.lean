/-
# BorderSync.CommandLine.Start -- a start of the command, up to the cluster

A start reads its arguments, settles how it reports, makes its settings and prepares secured
connections. Then it looks for a cluster. This module says what a start without a cluster leads to:
every such start ends, with a code, lines of output and perhaps a complaint.
-/
import BorderSync.Cluster.UserAgent
import BorderSync.CommandLine.ToArguments
import BorderSync.Logging.Filter
import BorderSync.Tls.Configuration

namespace BorderSync.CommandLine

/-- **Ending** of a start. -/
structure Ending where
  code : Nat
  output : List String := []
  complaint : String := ""
  deriving DecidableEq, Repr

/-- The files that a start reads, by path. -/
abbrev FileReader := String → Except OsFault (List UInt8)

/-! ## Reports -/

/-- Part of the program that a report comes from. -/
inductive Origin where
  | program
  | tls

/-- The name of an origin in a log. -/
def Origin.text : Origin → String
  | .program => "edgesync"
  | .tls => "edgesync::net::tls"

/-- The threshold of a level. -/
def threshold : Level → Logging.Threshold
  | .info => .info
  | .warn => .warn
  | .error => .error

/-- The lines for a report, none if the filter holds it back. -/
def reportLines (f : Logging.Filter) (o : Origin) (r : Report) : List String :=
  if f.shows o.text (threshold r.level) then [r.level.text ++ " " ++ o.text ++ ": " ++ r.text]
  else []

/-- The report that a start makes once its settings are known. -/
def startingReport (s : Settings) : Report :=
  .info ("🚀 " ++ UserAgent.ownName ++ " starting: " ++ toString s.hosts.length
    ++ " NGINX hosts, tls=" ++ s.tlsMode.text)

/-! ## Endings -/

/-- The variable that chooses which reports are shown. -/
def filterVariable : String := "RUST_LOG"

/-- The lines of a text. -/
def textLines (s : String) : List String :=
  let lines := (Text.splitOnChar '\n' s.toList).map String.ofList
  if lines.getLast? = some "" then lines.dropLast else lines

/-- The ending when the arguments ask for none or make no sense. -/
def stopped (s : Stop) : Ending :=
  match s.answer? with
  | some text => { code := 0, output := textLines text }
  | none => { code := 2, complaint := s.message }

/-- The ending when a start fails. -/
def failed (output : List String) (e : Error) : Ending :=
  { code := 1, output := output, complaint := "Error: " ++ e.message }

/-- **A start without a cluster.** -/
def start (a : Tls.Acceptance) (read : FileReader) (env : Environment) (args : List String) :
    Ending :=
  match parse env args with
  | .error stop => stopped stop
  | .ok arguments =>
    let filter := Logging.Filter.choose (env.lookup filterVariable) arguments.logLevel
    match Settings.ofArguments read arguments with
    | .error e => failed [] e
    | .ok settings =>
      let output := reportLines filter .program (startingReport settings)
      match Tls.configure a settings.tlsMode settings.certificates with
      | .error e => failed output e
      | .ok _ =>
        failed (output ++ reportLines filter .tls (Tls.configuredReport settings.tlsMode)) .noCluster

/-- The paths of the files that a start reads. -/
def paths (env : Environment) (args : List String) : List String :=
  match parse env args with
  | .error _ => []
  | .ok a => [a.caCertificate, a.clientCertificate, a.clientKey].filterMap id

end BorderSync.CommandLine
