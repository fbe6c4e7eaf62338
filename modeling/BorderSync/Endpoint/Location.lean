/-
# BorderSync.Endpoint.Location -- where a border server's API is reached, and paths below it

A location has the parts of an endpoint text: scheme, credentials, host, port, path segments, query and
fragment. Paths below an endpoint are made segment by segment. A segment is escaped so that it stays one
segment whatever it holds; the two dot segments are the exception that paths make.
-/
import BorderSync.Text.Base64
import BorderSync.Text.Percent

namespace BorderSync.Endpoint

/-- **Location**: an endpoint text in parts, or a place below it. All parts are as they stand in the text. -/
structure Location where
  scheme : String
  credentials : Option (String × Option String) := none
  /-- Without a host the path follows the scheme at once. A host may be empty. -/
  host : Option String := none
  port : Option Nat := none
  /-- The parts of the path, each with a slash before it. -/
  segments : List String := [""]
  query : Option String := none
  fragment : Option String := none
  /-- A dot segment stands before the path, which could be taken for a host without it. -/
  dotted : Bool := false
  deriving DecidableEq, Repr

/-- Schemes whose texts always have a host and a path. -/
def webSchemes : List String :=
  ["http", "https", "ws", "wss", "ftp"]

/-- Characters without meaning anywhere in an endpoint text. -/
def isLineBreakOrTab (c : Char) : Bool :=
  c == '\t' || c == '\n' || c == '\r'

namespace Location

/-! ## Paths below an endpoint -/

/-- A backslash separates segments like a slash. -/
def isWeb (l : Location) : Bool :=
  webSchemes.contains l.scheme || l.scheme == "file"

/-- Drop an empty last segment, which a trailing slash makes. -/
def dropEmptyLast (segments : List String) : List String :=
  if 2 ≤ segments.length ∧ segments.getLast? = some "" then segments.dropLast else segments

/-- Add one segment. The two dot segments add nothing. Line breaks and tabs vanish, and a segment
that is a dot segment without them leaves an empty one, the double dot after dropping one. -/
def addSegment (web : Bool) (segments : List String) (raw : String) : List String :=
  if raw = "." ∨ raw = ".." then segments
  else
    let lead := if segments = [""] then [] else segments
    let kept := raw.toList.filter fun c => !isLineBreakOrTab c
    if kept = ['.'] then lead ++ [""]
    else if kept = ['.', '.'] then lead.dropLast ++ [""]
    else lead ++ [String.ofList (Text.Percent.encode (Text.Percent.inSegment web) kept)]

/-- The place below `l` that the given segments lead to. -/
def below (l : Location) (raws : List String) : Location :=
  { l with segments := raws.foldl (addSegment l.isWeb) (dropEmptyLast l.segments) }

/-! ## Texts -/

/-- Host and port, as they are announced to the server. -/
def authority (l : Location) : String :=
  l.host.getD "" ++ (match l.port with | none => "" | some p => ":" ++ toString p)

/-- The path. -/
def path (l : Location) : String :=
  if l.segments = [] then "" else "/" ++ "/".intercalate l.segments

/-- Path and query, as they are asked for. -/
def target (l : Location) : String :=
  l.path ++ (match l.query with | none => "" | some q => "?" ++ q)

/-- What stands between the scheme and the path; credentials are left out. -/
def site (l : Location) : String :=
  match l.host with
  | some _ => "//" ++ l.authority
  | none => if l.dotted then "/." else ""

/-- **The place as text**; credentials and fragment are not part of it. -/
def text (l : Location) : String :=
  l.scheme ++ ":" ++ l.site ++ l.target

/-- The text that an escaped one stands for, if it is well-formed. -/
def shown? (escaped : String) : Option String :=
  (Text.Utf8.decode? (Text.Percent.decode escaped.toList)).map String.ofList

/-- The header value that carries the credentials. -/
def authorization? (l : Location) : Option String := do
  let (user, password) ← l.credentials
  let name ← shown? user
  let word := password.bind shown?
  if name = "" ∧ word = none then none
  else
    some ("Basic " ++ String.ofList
      (Text.Base64.encode (Text.Utf8.encode (name ++ ":" ++ word.getD "").toList)))

end Location

end BorderSync.Endpoint
