/-
# BorderSync.Logging.Filter -- which reports are shown

A filter is a list of directives. A directive names a target, perhaps a span with fields, and the
least serious level that is shown for it. Directives that need only the target are static, the
others depend on the spans that a report arises in; each kind is kept with the most specific ones
first, one of a kind.

A directive text is read over its trimmed characters, but its parts are cut out of the text as it
was given, so white space in front shifts them.
-/
import BorderSync.Text.Blank
import BorderSync.Text.Decimal
import BorderSync.Text.Ranges
import BorderSync.Text.Utf8

namespace BorderSync.Logging

/-! ## Thresholds -/

/-- The least serious level that is shown. -/
inductive Threshold where
  | off
  | error
  | warn
  | info
  | debug
  | trace
  deriving DecidableEq, Repr

namespace Threshold

/-- All thresholds, by rank. -/
def all : List Threshold := [.off, .error, .warn, .info, .debug, .trace]

/-- The name of a threshold. -/
def text : Threshold → String
  | .off => "off"
  | .error => "error"
  | .warn => "warn"
  | .info => "info"
  | .debug => "debug"
  | .trace => "trace"

/-- How much a threshold lets through. -/
def rank : Threshold → Nat
  | .off => 0
  | .error => 1
  | .warn => 2
  | .info => 3
  | .debug => 4
  | .trace => 5

/-- The threshold that a text names, by its rank or in words of any case. -/
def ofText? (s : String) : Option Threshold :=
  match (Text.Decimal.readNat (Nat.pow 2 64 - 1) s).toOption with
  | some n => all[n]?
  | none => if s = "" then some .error else all.find? fun t => t.text == Text.lower s

end Threshold

/-! ## Directives -/

/-- A field that a span must have, perhaps with a value. -/
structure FieldMatch where
  name : String
  value : Option String
  deriving DecidableEq, Repr

/-- The field as text. -/
def FieldMatch.text (f : FieldMatch) : String :=
  f.name ++ (match f.value with | none => "" | some v => "=" ++ v)

/-- **Directive.** -/
structure Directive where
  target : Option String := none
  span : Option String := none
  fields : List FieldMatch := []
  level : Threshold := .trace
  deriving DecidableEq, Repr

namespace Directive

/-- A field's value, with numbers in their shortest form. -/
def normalValue (s : String) : String :=
  match Text.Decimal.readNat (Nat.pow 2 64 - 1) s with
  | .ok n => toString n
  | .error _ =>
    match Text.Decimal.readInt64 s with
    | .ok i => toString i
    | .error _ => s

/-- A field from its text. -/
def fieldOf (s : List Char) : FieldMatch :=
  match Text.splitOnChar '=' s with
  | [] => ⟨"", none⟩
  | [name] => ⟨String.ofList name, none⟩
  | name :: value :: _ => ⟨String.ofList name, some (normalValue (String.ofList value))⟩

/-- Where the reading of a directive stands. Positions count octets. -/
inductive State where
  | start
  | levelOrTarget (start : Nat)
  | span (start : Nat)
  | field (start : Nat)
  | fields
  | target
  | level (start : Nat)

/-- The part of a text between two positions. -/
def slice (s : List UInt8) (start stop : Nat) : List Char :=
  Text.Utf8.decodeLossy ((s.take stop).drop start)

/-- Letters and digits of any alphabet. -/
def isWordChar (c : Char) : Bool :=
  c.isAlphanum || (0x80 ≤ c.toNat && !Text.isBlank c && !Text.Ranges.covers Text.Ranges.unprintable c
    && !Text.Ranges.covers Text.Ranges.extending c && !(0x2000 ≤ c.toNat && c.toNat < 0x2c00))

/-- Read one character at position `i`. -/
def step (given : List UInt8) (i : Nat) (c : Char) : State × Directive → Option (State × Directive)
  | (.start, d) =>
    if c = '[' then some (.span (i + 1), d)
    else if c = '-' ∨ c = ':' ∨ c = '_' ∨ isWordChar c then some (.levelOrTarget i, d)
    else none
  | (.levelOrTarget start, d) =>
    let named := { d with target := some (String.ofList (slice given start i)) }
    if c = '=' then some (.level (i + 1), named)
    else if c = '[' then some (.span (i + 1), named)
    else some (.levelOrTarget start, d)
  | (.target, d) => if c = '=' then some (.level (i + 1), d) else none
  | (.span start, d) =>
    let name := slice given start i
    if c = ']' then some (.target, { d with span := some (String.ofList name) })
    else if c = '\x7b' then
      some (.field (i + 1),
        { d with span := if name.isEmpty then none else some (String.ofList name) })
    else some (.span start, d)
  | (.field start, d) =>
    if c = '\x7d' then
      let text := slice given start i
      if text.isEmpty then none
      else some (.fields, { d with fields := d.fields ++ [fieldOf text] })
    else some (.field start, d)
  | (.fields, d) => if c = ']' then some (.target, d) else none
  | (.level start, d) => some (.level start, d)

/-- Read characters from position `i` on. -/
def run (given : List UInt8) : (i : Nat) → List Char → State × Directive →
    Option (State × Directive)
  | _, [], s => some s
  | i, c :: rest, s =>
    (step given i c s).bind (run given (i + c.utf8Size) rest)

/-- What the end of the text means. -/
def finish (given : List UInt8) : State × Directive → Option Directive
  | (.levelOrTarget start, d) =>
    let text := String.ofList (slice given start given.length)
    if text = "" then some { d with level := .trace, target := none }
    else
      match Threshold.ofText? text with
      | some level => some { d with level := level, target := none }
      | none => some { d with level := .trace, target := some text }
  | (.level start, d) =>
    let text := String.ofList (slice given start given.length)
    if text = "" then some { d with level := .trace }
    else (Threshold.ofText? text).map fun level => { d with level := level }
  | (.target, d) => some d
  | _ => none

/-- **Read a directive.** -/
def read? (text : List Char) : Option Directive :=
  let given := Text.Utf8.encode text
  (run given 0 (Text.trimChars text) (.start, {})).bind (finish given)

/-- Whether the spans that a report arises in matter. -/
def isDynamic (d : Directive) : Bool :=
  d.span.isSome || !d.fields.isEmpty

/-- The static form of a directive that names no span and no values. -/
def toStatic? (d : Directive) : Option Directive :=
  if d.span.isNone && d.fields.all (·.value.isNone) then some d else none

/-- The directive as text. -/
def text (d : Directive) : String :=
  let place :=
    d.target.getD "" ++
      (if d.isDynamic then
        "[" ++ d.span.getD ""
          ++ (if d.fields.isEmpty then ""
              else "\x7b" ++ ",".intercalate (d.fields.map FieldMatch.text) ++ "\x7d")
          ++ "]"
      else "")
  if d.target.isNone && !d.isDynamic then d.level.text else place ++ "=" ++ d.level.text

/-- Octets of the target; no target is shorter than an empty one. -/
def targetLength (d : Directive) : Nat :=
  match d.target with
  | none => 0
  | some t => t.utf8ByteSize + 1

/-- A text that orders equally specific directives. -/
def tieText (d : Directive) : List (List Char) :=
  [(d.target.getD "").toList, (d.span.getD "").toList] ++ d.fields.map fun f => f.text.toList

/-- **Order by specificity**: longer targets, then spans, then more fields come first. -/
def compare (a b : Directive) : Ordering :=
  ((((Ord.compare a.targetLength b.targetLength).then
    (Ord.compare a.span.isSome.toNat b.span.isSome.toNat)).then
    (Ord.compare a.fields.length b.fields.length)).then
    (Ord.compare a.tieText b.tieText)).swap

end Directive

/-! ## Filters -/

/-- **Filter**: static and dynamic directives, most specific first. -/
structure Filter where
  statics : List Directive := []
  dynamics : List Directive := []
  deriving DecidableEq, Repr

namespace Filter

/-- Insert a directive; one that is equally specific in every way is replaced. -/
def insert (d : Directive) : List Directive → List Directive
  | [] => [d]
  | e :: rest =>
    match d.compare e with
    | .lt => d :: e :: rest
    | .eq => d :: rest
    | .gt => e :: insert d rest

/-- Insert directives in order. -/
def insertAll (ds : List Directive) : List Directive :=
  ds.foldl (fun acc d => insert d acc) []

/-- The filter of a list of directives. -/
def ofDirectives (ds : List Directive) : Filter :=
  let (dynamics, statics) := ds.partition Directive.isDynamic
  ⟨insertAll (statics.filterMap Directive.toStatic? ++ dynamics.filterMap Directive.toStatic?),
    insertAll dynamics⟩

/-- Read a filter: directives with commas between. -/
def read? (s : String) : Option Filter :=
  if s = "" then some {}
  else ((Text.splitOnChar ',' s.toList).mapM Directive.read?).map ofDirectives

/-- The level that is used when nothing else can be. -/
def fallback : Filter :=
  ofDirectives [{ level := .info }]

/-- **The filter of a run**: the variable of the environment, else the level, if they can be read. -/
def choose (fromEnvironment : Option String) (level : String) : Filter :=
  ((fromEnvironment.bind read?).or (read? level)).getD fallback

/-- The filter as text. -/
def text (f : Filter) : String :=
  ",".intercalate ((f.statics ++ f.dynamics).map Directive.text)

/-- A report outside all spans with the given target is shown. Its only field is its message. -/
def shows (f : Filter) (target : String) (level : Threshold) : Bool :=
  match f.statics.find? fun d =>
      (d.target.getD "").toList.isPrefixOf target.toList && d.fields.all (·.name == "message") with
  | none => false
  | some d => decide (level.rank ≤ d.level.rank)

end Filter

end BorderSync.Logging
