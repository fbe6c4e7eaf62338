/-
# BorderSync.CommandLine.Options -- the options of the command

Each option has a long name, a variable of the environment that stands in for it, a sort of value
and perhaps a default. The list of options is the one place where they are written down; parsing
and the help text both follow it.
-/

namespace BorderSync.CommandLine

/-- The sorts of values. -/
inductive ValueSort where
  | text
  | path
  /-- A whole number from 0 to `bound`; a small one may be out of range with a sign. -/
  | small (bound : Nat)
  | large
  deriving DecidableEq, Repr

/-- One option. -/
structure OptionSpec where
  long : String
  envName : String
  sort : ValueSort
  default : Option String
  help : String := ""
  deriving DecidableEq, Repr

namespace OptionSpec

/-- The name of the value in usage texts: the long name in capitals with underscores. -/
def valueName (o : OptionSpec) : String :=
  String.ofList (o.long.toList.map fun c => if c = '-' then '_' else c.toUpper)

/-- The option as it is shown. -/
def shown (o : OptionSpec) : String :=
  "--" ++ o.long ++ " <" ++ o.valueName ++ ">"

end OptionSpec

/-- The largest number of 32 bits. -/
def max32 : Nat := 4294967295

/-- The largest number of 16 bits. -/
def max16 : Nat := 65535

/-- **All options**, in order. -/
def options : List OptionSpec := [
  ⟨"nginx-hosts", "NGINX_HOSTS", .text, some "",
    "Comma separated NGINX Plus API URLs, e.g. \x60http://10.0.0.5:9000/api\x60"⟩,
  ⟨"tls-mode", "TLS_MODE", .text, some "no-tls", "One of no-tls, ca-tls, ca-mtls, ss-tls, ss-mtls"⟩,
  ⟨"ca-certificate", "CA_CERTIFICATE", .path, none, ""⟩,
  ⟨"client-certificate", "CLIENT_CERTIFICATE", .path, none, ""⟩,
  ⟨"client-key", "CLIENT_KEY", .path, none, ""⟩,
  ⟨"handler-retry-count", "HANDLER_RETRY_COUNT", .small max32, some "5",
    "Reserved, currently unused: events that fail translation are dropped, not retried"⟩,
  ⟨"handler-threads", "HANDLER_THREADS", .large, some "1", ""⟩,
  ⟨"handler-rate-limiter-base-ms", "HANDLER_RATE_LIMITER_BASE_MS", .large, some "200", ""⟩,
  ⟨"handler-rate-limiter-max-ms", "HANDLER_RATE_LIMITER_MAX_MS", .large, some "60000", ""⟩,
  ⟨"synchronizer-retry-count", "SYNCHRONIZER_RETRY_COUNT", .small max32, some "5", ""⟩,
  ⟨"synchronizer-threads", "SYNCHRONIZER_THREADS", .large, some "1", ""⟩,
  ⟨"synchronizer-rate-limiter-base-ms", "SYNCHRONIZER_RATE_LIMITER_BASE_MS", .large, some "500", ""⟩,
  ⟨"synchronizer-rate-limiter-max-ms", "SYNCHRONIZER_RATE_LIMITER_MAX_MS", .large, some "60000", ""⟩,
  ⟨"min-jitter-ms", "MIN_JITTER_MS", .large, some "10", ""⟩,
  ⟨"max-jitter-ms", "MAX_JITTER_MS", .large, some "750", ""⟩,
  ⟨"service-label-selector", "SERVICE_LABEL_SELECTOR", .text, none,
    "Only watch Services matching this label selector"⟩,
  ⟨"health-port", "HEALTH_PORT", .small max16, some "51031", ""⟩,
  ⟨"request-timeout-secs", "REQUEST_TIMEOUT_SECS", .large, some "10", ""⟩,
  ⟨"log-level", "LOG_LEVEL", .text, some "info", "Used when \x60RUST_LOG\x60 is not set"⟩]

end BorderSync.CommandLine
