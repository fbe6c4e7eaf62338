/-
# BorderSync.Endpoint.Reading -- what an endpoint text is read as

An endpoint text begins with a scheme, which says how the rest is read. After the scheme of the web come a
host and a path, in which a backslash is a slash. After `file` the host may be missing, and the path may begin
with the letter of a drive. After any other scheme two slashes announce a host, one slash begins a path
without a host, and anything else has no path.
-/
import BorderSync.Endpoint.Host
import BorderSync.Endpoint.Location

namespace BorderSync.Endpoint

/-- What an endpoint text is: a place that paths can be added to, or a name that has none. -/
inductive Reading where
  | place (l : Location)
  | pathless
  deriving DecidableEq, Repr

/-- **Reader**: a way to read endpoint texts. -/
abbrev Reader :=
  String → Except Fault Reading

/-- The port that a scheme uses when none is given. -/
def defaultPort? (scheme : String) : Option Nat :=
  if scheme == "http" || scheme == "ws" then some 80
  else if scheme == "https" || scheme == "wss" then some 443
  else if scheme == "ftp" then some 21
  else none

/-- The text without surrounding controls and spaces, and without line breaks and tabs. -/
def tidy (s : List Char) : List Char :=
  let outer := fun c : Char => decide (c.toNat ≤ 0x20)
  (Text.dropEndWhile outer (s.dropWhile outer)).filter fun c => !isLineBreakOrTab c

/-- The scheme before the first colon, in lower case, and what follows the colon. -/
def scheme? (s : List Char) : Option (String × List Char) :=
  let lead := s.takeWhile (· != ':')
  match s.dropWhile (· != ':') with
  | ':' :: rest =>
    if (lead.head?.map Char.isAlpha).getD false
        && lead.all (fun c => c.isAlphanum || c == '+' || c == '-' || c == '.') then
      some (String.ofList (lead.map Text.lowerAscii), rest)
    else none
  | _ => none

/-! ## Authorities -/

/-- User and password before the last at sign of an authority, if there are any. -/
def credentials? (raw : List Char) : Option (String × Option String) :=
  let escaped := fun cs : List Char => String.ofList (Text.Percent.encode Text.Percent.inCredentials cs)
  let user := raw.takeWhile (· != ':')
  let password := (raw.dropWhile (· != ':')).drop 1
  if password.isEmpty then if user.isEmpty then none else some (escaped user, none)
  else some (escaped user, some (escaped password))

/-- The part of an authority before the last at sign, and the part after it. -/
def splitCredentials (authority : List Char) : List Char × List Char :=
  if authority.contains '@' then
    let tail := (authority.reverse.takeWhile (· != '@')).reverse
    (authority.take (authority.length - tail.length - 1), tail)
  else ([], authority)

/-- Host and port are separated by the first colon outside brackets. -/
def splitPort (inside : Bool) : List Char → List Char × Option (List Char)
  | [] => ([], none)
  | c :: rest =>
    if c = ':' ∧ inside = false then ([], some rest)
    else
      let p := splitPort (if c = '[' then true else if c = ']' then false else inside) rest
      (c :: p.1, p.2)

/-- A port number that is not the default one of its scheme, and what follows it. Only a backslash may. -/
def port? (scheme : String) : Option (List Char) → Except Fault (Option Nat × List Char)
  | none => .ok (none, [])
  | some cs =>
    let number := cs.takeWhile Char.isDigit
    let more := cs.dropWhile Char.isDigit
    match Host.digits? 10 number with
    | none => .error .badPort
    | some n =>
      if 65535 < n || (more.head?.map (· != '\\')).getD false then .error .badPort
      else .ok (if number.isEmpty || defaultPort? scheme == some n then none else some n, more)

/-! ## Paths, queries and fragments -/

/-- A segment that stands for the directory itself. -/
def isSingleDot (s : String) : Bool :=
  [".", "%2e", "%2E"].contains s

/-- A segment that stands for the directory above. -/
def isDoubleDot (s : String) : Bool :=
  ["..", ".%2e", ".%2E", "%2e.", "%2E.", "%2e%2e", "%2e%2E", "%2E%2e", "%2E%2E"].contains s

/-- The segments of a path, with the dot segments resolved; `done` are those read so far, and `above` is what
leads to the directory above. -/
def resolve (above : List String → List String) (done : List String) : List String → List String
  | [] => done
  | [s] =>
    if isDoubleDot s then above done ++ [""]
    else if isSingleDot s then done ++ [""]
    else done ++ [s]
  | s :: rest =>
    if isDoubleDot s then resolve above (above done) rest
    else if isSingleDot s then resolve above done rest
    else resolve above (done ++ [s]) rest

/-- The segments between slashes. -/
def cut (path : List Char) : List String :=
  (Text.splitOnChar '/' path).map fun s => String.ofList (Text.Percent.encode Text.Percent.inPath s)

/-- A slash at the front begins a path. -/
def dropSlash (path : List Char) : List Char :=
  if path.head? = some '/' then path.drop 1 else path

/-- A backslash is a slash. -/
def slashed (path : List Char) : List Char :=
  path.map fun c => if c = '\\' then '/' else c

/-- The segments of a path text after a scheme of the web. -/
def webSegments (path : List Char) : List String :=
  resolve List.dropLast [] (cut (dropSlash (slashed path)))

/-- The segments of a path text after any other scheme. There may be none. -/
def foreignSegments (path : List Char) : List String :=
  if path.isEmpty then [] else resolve List.dropLast [] (cut (dropSlash path))

/-- Characters that belong to a path. -/
def inPathText (c : Char) : Bool :=
  c != '?' && c != '#'

/-- The query of what follows a path. -/
def query? (web : Bool) : List Char → Option String
  | '?' :: rest =>
    some (String.ofList (Text.Percent.encode (Text.Percent.inQuery web) (rest.takeWhile (· != '#'))))
  | _ => none

/-- The fragment of what follows a path. -/
def fragment? (s : List Char) : Option String :=
  match s.dropWhile (· != '#') with
  | '#' :: rest => some (String.ofList (Text.Percent.encode Text.Percent.inFragment rest))
  | _ => none

/-! ## Web schemes -/

/-- Characters that end the authority of a web scheme. -/
def endsAuthority (c : Char) : Bool :=
  c == '/' || c == '\\' || c == '?' || c == '#'

/-- The place that the text after a web scheme names. -/
def readWeb (scheme : String) (rest : List Char) : Except Fault Location := do
  let s := rest.dropWhile fun c => c == '/' || c == '\\'
  let (login, address) := splitCredentials (s.takeWhile fun c => !endsAuthority c)
  let after := s.dropWhile fun c => !endsAuthority c
  let (rawHost, rawPort) := splitPort false address
  let host ← Host.parse rawHost
  let (port, _) ← port? scheme rawPort
  return {
    scheme := scheme
    credentials := credentials? login
    host := some host
    port := port
    segments := webSegments (after.takeWhile inPathText)
    query := query? true (after.dropWhile inPathText)
    fragment := fragment? (after.dropWhile inPathText) }

/-! ## Files -/

/-- The letter of a drive: a letter and a colon, or a bar instead of the colon. -/
def isDrive (s : List Char) : Bool :=
  match s with
  | [letter, mark] => letter.isAlpha && (mark == ':' || mark == '|')
  | _ => false

/-- The directory above; there is none above a drive. -/
def aboveInFiles (done : List String) : List String :=
  match done with
  | [drive] => if isDrive drive.toList then [drive] else []
  | _ => done.dropLast

/-- The segments of a file's path: a drive has a colon, and nothing empty is at the front. -/
def fileSegments (path : List Char) : List String :=
  let pieces := Text.splitOnChar '/' ((slashed path).dropWhile (· == '/'))
  let named := match pieces with
    | first :: rest => (if isDrive first then first.take 1 ++ [':'] else first) :: rest
    | [] => []
  let segments := resolve aboveInFiles []
    (named.map fun s => String.ofList (Text.Percent.encode Text.Percent.inPath s))
  let own := segments.dropWhile (· == "")
  if own.isEmpty then [""] else own

/-- The place of a file, on a host with the given text. A file on a drive has no host. -/
def fileAt (rawHost : List Char) (rest : List Char) : Except Fault Location := do
  let named ← if rawHost.isEmpty then pure "" else Host.parse rawHost
  let segments := fileSegments (rest.takeWhile inPathText)
  let onDrive := (segments.head?.map fun s => isDrive s.toList).getD false
  return {
    scheme := "file"
    host := some (if named = "localhost" || onDrive then "" else named)
    segments := segments
    query := query? true (rest.dropWhile inPathText)
    fragment := fragment? (rest.dropWhile inPathText) }

/-- The place that the text after `file` names. -/
def readFile (rest : List Char) : Except Fault Location :=
  match slashed (rest.take 2) with
  | ['/', '/'] =>
    let s := rest.drop 2
    let rawHost := s.takeWhile fun c => !endsAuthority c
    if isDrive rawHost then fileAt [] s
    else fileAt rawHost (s.dropWhile fun c => !endsAuthority c)
  | _ => fileAt [] rest

/-! ## Other schemes -/

/-- Characters that end the authority of any other scheme. -/
def endsForeignAuthority (c : Char) : Bool :=
  c == '/' || c == '?' || c == '#'

/-- The place that the text after the scheme and two slashes names. An empty host has neither credentials
nor a port. -/
def readForeignAt (scheme : String) (s : List Char) : Except Fault Location := do
  let authority := s.takeWhile fun c => !endsForeignAuthority c
  let after := s.dropWhile fun c => !endsForeignAuthority c
  let (login, address) := splitCredentials authority
  let credentials := credentials? login
  let (rawHost, rawPort) := splitPort false address
  if authority == ['@'] && !after.isEmpty then .error .emptyHost
  else
    let host ← Host.parseForeign rawHost
    if host = "" && (rawPort.isSome || credentials.isSome) then .error .emptyHost
    else
      let (port, more) ← port? scheme rawPort
      return {
        scheme := scheme
        credentials := credentials
        host := some host
        port := port
        segments := foreignSegments (more ++ after.takeWhile inPathText)
        query := query? false (after.dropWhile inPathText)
        fragment := fragment? (after.dropWhile inPathText) }

/-- What the text after any other scheme names. -/
def readForeign (scheme : String) (rest : List Char) : Except Fault Reading :=
  match rest with
  | '/' :: '/' :: s => (readForeignAt scheme s).map .place
  | '/' :: s =>
    let segments := foreignSegments ('/' :: s.takeWhile inPathText)
    .ok (.place {
      scheme := scheme
      segments := segments
      query := query? false (s.dropWhile inPathText)
      fragment := fragment? (s.dropWhile inPathText)
      dotted := decide (2 ≤ segments.length) && segments.head? == some "" })
  | _ => .ok .pathless

/-- **Read an endpoint text.** -/
def read : Reader := fun text =>
  match scheme? (tidy text.toList) with
  | none => .error .noScheme
  | some (scheme, rest) =>
    if webSchemes.contains scheme then (readWeb scheme rest).map .place
    else if scheme = "file" then (readFile rest).map .place
    else readForeign scheme rest

end BorderSync.Endpoint
