/-
# BorderSync.CommandLine.Help -- the help and version texts

The help text lists every option with its help line, the variable that stands in for it with the
value that it has at the moment, and its default.
-/
import BorderSync.CommandLine.Options
import BorderSync.Text.Quoted

namespace BorderSync.CommandLine

/-- Variables of the environment. -/
abbrev Environment := List (String × String)

/-- The name of the program. -/
def programName : String := "edgesync"

/-- The version of the program. -/
def programVersion : String := "0.4.2"

/-- What the program is for. -/
def about : String :=
  "Keeps NGINX Plus upstreams in sync with Kubernetes Service membership"

/-- The version text. -/
def versionText : String :=
  programName ++ " " ++ programVersion ++ "\n"

/-- The default of an option, as it is shown; an empty text is quoted. -/
def shownDefault (d : String) : String :=
  if d = "" then Text.quote d else d

/-- The parts of the second line of an option. -/
def helpParts (env : Environment) (o : OptionSpec) : List String :=
  (if o.help = "" then [] else [o.help])
    ++ ["[env: " ++ o.envName ++ "=" ++ (env.lookup o.envName).getD "" ++ "]"]
    ++ (match o.default with
        | none => []
        | some d => ["[default: " ++ shownDefault d ++ "]"])

/-- The two lines of an option. -/
def helpEntry (env : Environment) (o : OptionSpec) : String :=
  "      " ++ o.shown ++ "\n          " ++ " ".intercalate (helpParts env o) ++ "\n"

/-- **The help text.** -/
def helpText (env : Environment) : String :=
  about ++ "\n\nUsage: " ++ programName ++ " [OPTIONS]\n\nOptions:\n"
    ++ String.join (options.map (helpEntry env))
    ++ "  -h, --help\n          Print help\n  -V, --version\n          Print version\n"

end BorderSync.CommandLine
