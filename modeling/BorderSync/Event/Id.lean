/-
# BorderSync.Event.Id -- names for the copies of an update

Each copy of an update that goes to a border server has an id of five bracketed fields: the index
of the host, the index of the update, a token, the upstream and the host. The indices keep the ids
of one call apart whatever the tokens are; tokens keep calls apart. `redact` hides the tokens in a
text, so that texts of different runs can be compared.
-/
import BorderSync.Text.Decimal

namespace BorderSync.Event.Id

/-- Letters and digits, in the order in which tokens count. -/
def tokenLetters : List Char :=
  "ABCDEFGHIJKLMNOPQRSTUVWXYZabcdefghijklmnopqrstuvwxyz0123456789".toList

/-- Number of letters in a token. -/
def tokenLength : Nat := 8

/-- The `n`-th token of the given length: `n` in base 62. -/
def tokenOf : (length : Nat) → (n : Nat) → List Char
  | 0, _ => []
  | length + 1, n => tokenOf length (n / 62) ++ [tokenLetters.getD (n % 62) 'A']

/-- The `n`-th token. -/
def token (n : Nat) : String :=
  String.ofList (tokenOf tokenLength n)

/-- **The id** of a copy. -/
def text (hostIndex updateIndex : Nat) (token upstream host : String) : String :=
  "[" ++ toString hostIndex ++ "]:[" ++ toString updateIndex ++ "]:[" ++ token ++ "]:[" ++ upstream
    ++ "]:[" ++ host ++ "]"

/-- What can be read back from an id: both indices and the token. -/
structure Parts where
  hostIndex : Nat
  updateIndex : Nat
  token : String
  deriving DecidableEq, Repr

/-- An opening bracket, the longest run of characters with `p`, and the rest after `]:[`. -/
def field? (p : Char → Bool) (s : List Char) : Option (List Char × List Char) :=
  match s.dropWhile p with
  | ']' :: ':' :: '[' :: rest => some (s.takeWhile p, rest)
  | _ => none

/-- The value of a run of decimal digits. -/
def number? (cs : List Char) : Option Nat :=
  if cs.isEmpty then none
  else cs.foldl (fun acc c => do
    let n ← acc
    let d ← Text.Decimal.digit? c
    return n * 10 + d) (some 0)

/-- Read the indices and the token of an id, and the rest after them. -/
def readParts? : List Char → Option (Parts × List Char)
  | '[' :: s => do
    let (h, s) ← field? Char.isDigit s
    let (u, s) ← field? Char.isDigit s
    let (t, s) ← field? Char.isAlphanum s
    return (⟨← number? h, ← number? u, String.ofList t⟩, s)
  | _ => none

/-- **Read back** the indices and the token of an id. -/
def read? (id : String) : Option Parts :=
  (readParts? id.toList).map Prod.fst

/-- The beginning of an id with its token hidden, and the rest. -/
def hidden? (s : List Char) : Option (List Char × List Char) :=
  match s with
  | '[' :: r =>
    match field? Char.isDigit r with
    | none => none
    | some (h, r) =>
      match field? Char.isDigit r with
      | none => none
      | some (u, r) =>
        match field? Char.isAlphanum r with
        | none => none
        | some (t, r) =>
          if h.isEmpty || u.isEmpty || t.length != tokenLength then none
          else some (('[' :: h) ++ "]:[".toList ++ u ++ "]:[TOKEN]:[".toList, r)
  | _ => none

/-- Hide tokens; `n` bounds the number of steps. -/
def redactChars : Nat → List Char → List Char
  | 0, s => s
  | _ + 1, [] => []
  | n + 1, c :: rest =>
    match hidden? (c :: rest) with
    | some (shown, after) => shown ++ redactChars n after
    | none => c :: redactChars n rest

/-- **Hide every token** in a text. -/
def redact (s : String) : String :=
  String.ofList (redactChars s.length s.toList)

end BorderSync.Event.Id
