/-
# BorderSync.CommandLine.ToArguments -- typed arguments from option values
-/
import BorderSync.CommandLine.Arguments
import BorderSync.Settings.FromArguments

namespace BorderSync.CommandLine

/-- The arguments of a run, field by field. -/
def toArguments (v : Values) : Arguments where
  hosts := (text? v "nginx-hosts").getD ""
  tlsMode := (text? v "tls-mode").getD ""
  caCertificate := text? v "ca-certificate"
  clientCertificate := text? v "client-certificate"
  clientKey := text? v "client-key"
  inboundRetryCount := number v "handler-retry-count"
  inboundThreads := number v "handler-threads"
  inboundBase := number v "handler-rate-limiter-base-ms"
  inboundMax := number v "handler-rate-limiter-max-ms"
  outboundRetryCount := number v "synchronizer-retry-count"
  outboundThreads := number v "synchronizer-threads"
  outboundBase := number v "synchronizer-rate-limiter-base-ms"
  outboundMax := number v "synchronizer-rate-limiter-max-ms"
  minJitter := number v "min-jitter-ms"
  maxJitter := number v "max-jitter-ms"
  labelSelector := text? v "service-label-selector"
  healthPort := number v "health-port"
  requestTimeoutSecs := number v "request-timeout-secs"
  logLevel := (text? v "log-level").getD ""

/-- **Parse** the arguments of a run. -/
def parse (env : Environment) (args : List String) : Except Stop Arguments :=
  (read env args).map toArguments

end BorderSync.CommandLine
