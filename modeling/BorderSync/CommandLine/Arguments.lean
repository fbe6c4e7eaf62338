/-
# BorderSync.CommandLine.Arguments -- reading the arguments of a run

Arguments are read from left to right. The value of an option may be attached with an equals sign
or follow as the next argument; in the latter case it is looked at only when the next option begins
or the arguments end. What the arguments leave open comes from the environment, then from the
defaults.
-/
import BorderSync.CommandLine.Help
import BorderSync.Text.Blank
import BorderSync.Text.Decimal

namespace BorderSync.CommandLine

/-- The value of an option. -/
inductive Value where
  | text (s : String)
  | number (n : Nat)
  deriving DecidableEq, Repr

/-- Values by the long names of their options. -/
abbrev Values := List (String × Value)

/-- Why reading stops before the end. -/
inductive Stop where
  | help (text : String)
  | version
  | unknown (shown : String)
  | valueMissing (o : OptionSpec)
  | repeated (o : OptionSpec)
  | valueUnwanted (flag value : String)
  | badValue (o : OptionSpec) (value why : String)
  deriving DecidableEq, Repr

namespace Stop

/-- The class of a stop. -/
def kind : Stop → String
  | .help _ => "DisplayHelp"
  | .version => "DisplayVersion"
  | .unknown _ => "UnknownArgument"
  | .valueMissing _ => "InvalidValue"
  | .repeated _ => "ArgumentConflict"
  | .valueUnwanted _ _ => "TooManyValues"
  | .badValue _ _ _ => "ValueValidation"

/-- The whole text that was asked for, if the stop is no failure. -/
def answer? : Stop → Option String
  | .help text => some text
  | .version => some versionText
  | _ => none

/-- The explanation of a failure. -/
def explanation : Stop → String
  | .unknown shown => "unexpected argument '" ++ shown ++ "' found"
  | .valueMissing o => "a value is required for '" ++ o.shown ++ "' but none was supplied"
  | .repeated o => "the argument '" ++ o.shown ++ "' cannot be used multiple times"
  | .valueUnwanted flag value =>
    "unexpected value '" ++ value ++ "' for '" ++ flag ++ "' found; no more were expected"
  | .badValue o value why => "invalid value '" ++ value ++ "' for '" ++ o.shown ++ "': " ++ why
  | _ => ""

/-- The first line of a text. -/
def firstLine (s : String) : String :=
  String.ofList (s.toList.takeWhile (· != '\n'))

/-- **The text of a stop**: what was asked for, or the first line of the failure. -/
def message (s : Stop) : String :=
  match s.answer? with
  | some text => text
  | none => firstLine ("error: " ++ s.explanation)

end Stop

/-- The meaning of a value, or why it has none. -/
def readValue (o : OptionSpec) (raw : String) : Except Stop Value :=
  match o.sort with
  | .text => .ok (.text raw)
  | .path => if raw = "" then .error (.valueMissing o) else .ok (.text raw)
  | .large =>
    match Text.Decimal.readNat (Nat.pow 2 64 - 1) raw with
    | .error fault => .error (.badValue o raw fault.message)
    | .ok n => .ok (.number n)
  | .small bound =>
    match Text.Decimal.readInt64 raw with
    | .error fault => .error (.badValue o raw fault.message)
    | .ok i =>
      if 0 ≤ i ∧ i ≤ bound then .ok (.number i.toNat)
      else .error (.badValue o raw (toString i ++ " is not in 0..=" ++ toString bound))

/-- Set an option to a value; it may be set once. -/
def setOption (values : Values) (o : OptionSpec) (raw : String) : Except Stop Values :=
  if (values.lookup o.long).isSome then .error (.repeated o)
  else (readValue o raw).map fun v => values ++ [(o.long, v)]

/-- An option that has begun, with its value if that has come. -/
abbrev Pending := Option (OptionSpec × Option String)

/-- Finish the option that has begun. -/
def settlePending (values : Values) : Pending → Except Stop Values
  | none => .ok values
  | some (o, none) => .error (.valueMissing o)
  | some (o, some raw) => setOption values o raw

/-- The name of a long argument, and the value attached to it. -/
def splitAttached (cs : List Char) : String × Option String :=
  let name := String.ofList (cs.takeWhile (· != '='))
  match cs.dropWhile (· != '=') with
  | [] => (name, none)
  | _ :: value => (name, some (String.ofList value))

/-- The option with a long name. -/
def findOption? (name : String) : Option OptionSpec :=
  options.find? fun o => o.long == name

/-- Read arguments, with the option that has begun and the values so far. -/
def scan (env : Environment) (values : Values) (pending : Pending) :
    List String → Except Stop Values
  | [] => settlePending values pending
  | a :: rest =>
    match a.toList with
    | ['-', '-'] =>
      match rest with
      | [] => settlePending values pending
      | b :: _ => .error (.unknown b)
    | '-' :: '-' :: long =>
      let (name, attached) := splitAttached long
      match findOption? name with
      | some o => do
        match attached with
        | some raw =>
          let values ← settlePending values pending
          let values ← setOption values o raw
          scan env values none rest
        | none =>
          let values ← settlePending values pending
          scan env values (some (o, none)) rest
      | none =>
        if name = "help" ∨ name = "version" then
          match attached with
          | some raw => .error (.valueUnwanted ("--" ++ name) raw)
          | none => do
            let _ ← settlePending values pending
            .error (if name = "help" then .help (helpText env) else .version)
        else .error (.unknown ("--" ++ name))
    | '-' :: c :: _ =>
      if c = 'h' ∨ c = 'V' then do
        let _ ← settlePending values pending
        .error (if c = 'h' then .help (helpText env) else .version)
      else .error (.unknown ("-" ++ c.toString))
    | _ =>
      match pending with
      | some (o, none) => scan env values (some (o, some a)) rest
      | _ => .error (.unknown a)

/-- Fill in one option from the environment, then from its default. -/
def fill (env : Environment) (values : Values) (o : OptionSpec) : Except Stop Values :=
  if (values.lookup o.long).isSome then .ok values
  else
    match env.lookup o.envName with
    | some raw => setOption values o raw
    | none => .ok values

/-- Fill in one option from its default. -/
def fillDefault (values : Values) (o : OptionSpec) : Except Stop Values :=
  match o.default with
  | none => .ok values
  | some d => if (values.lookup o.long).isSome then .ok values else setOption values o d

/-- **Read the arguments** of a run. -/
def read (env : Environment) (args : List String) : Except Stop Values := do
  let given ← scan env [] none args
  let filled ← options.foldlM (fill env) given
  options.foldlM fillDefault filled

/-- The text of an option. -/
def text? (values : Values) (long : String) : Option String :=
  match values.lookup long with
  | some (.text s) => some s
  | _ => none

/-- The number of an option. -/
def number (values : Values) (long : String) : Nat :=
  match values.lookup long with
  | some (.number n) => n
  | _ => 0

end BorderSync.CommandLine
