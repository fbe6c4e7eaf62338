/-
# BorderSync.Json.Value -- JSON texts as trees

A tree keeps numbers and strings as they are written, so that reading a text decides nothing about
their meaning: `Json.Reader` checks the grammar only, and what a number or string stands for is
asked for later, by the one who wants to know. Trees are written without any blanks.
-/
import BorderSync.Text.Utf8

namespace BorderSync.Json

/-- **JSON tree**; numbers and the insides of strings are the octets as written. -/
inductive Value where
  | null
  | bool (b : Bool)
  | number (written : List UInt8)
  | text (written : List UInt8)
  | array (items : List Value)
  | object (members : List (List UInt8 × Value))
  deriving Repr

/-- The octets of a text. -/
def octets (s : String) : List UInt8 :=
  Text.Utf8.encode s.toList

/-! ## Meaning of strings and numbers -/

/-- The four hexadecimal digits of a small number, in lower case. -/
def hex4 (n : Nat) : List Char :=
  [n / 4096, n / 256 % 16, n / 16 % 16, n % 16].map Nat.digitChar

/-- How a character is written inside a string. -/
def escapeChar (c : Char) : List Char :=
  if c = '"' then ['\\', '"']
  else if c = '\\' then ['\\', '\\']
  else if c = '\x08' then ['\\', 'b']
  else if c = '\x09' then ['\\', 't']
  else if c = '\x0a' then ['\\', 'n']
  else if c = '\x0c' then ['\\', 'f']
  else if c = '\x0d' then ['\\', 'r']
  else if c.toNat < 0x20 then ['\\', 'u'] ++ hex4 c.toNat
  else [c]

/-- A text as it is written inside a string. -/
def escape (s : String) : List UInt8 :=
  Text.Utf8.encode (s.toList.flatMap escapeChar)

/-- The value of a hexadecimal digit. -/
def hexOctet? (b : UInt8) : Option Nat :=
  let n := b.toNat
  if 0x30 ≤ n ∧ n ≤ 0x39 then some (n - 0x30)
  else if 0x41 ≤ n ∧ n ≤ 0x46 then some (n - 0x37)
  else if 0x61 ≤ n ∧ n ≤ 0x66 then some (n - 0x57)
  else none

/-- The value of four hexadecimal digits. -/
def hex4? (a b c d : UInt8) : Option Nat := do
  return (← hexOctet? a) * 4096 + (← hexOctet? b) * 256 + (← hexOctet? c) * 16 + (← hexOctet? d)

/-- The octets that the inside of a string stands for. Half of a surrogate pair stands for
nothing, so it is refused. -/
def unescape : List UInt8 → Option (List UInt8)
  | [] => some []
  | 0x5c :: 0x22 :: rest => (unescape rest).map (0x22 :: ·)
  | 0x5c :: 0x5c :: rest => (unescape rest).map (0x5c :: ·)
  | 0x5c :: 0x2f :: rest => (unescape rest).map (0x2f :: ·)
  | 0x5c :: 0x62 :: rest => (unescape rest).map (0x08 :: ·)
  | 0x5c :: 0x66 :: rest => (unescape rest).map (0x0c :: ·)
  | 0x5c :: 0x6e :: rest => (unescape rest).map (0x0a :: ·)
  | 0x5c :: 0x72 :: rest => (unescape rest).map (0x0d :: ·)
  | 0x5c :: 0x74 :: rest => (unescape rest).map (0x09 :: ·)
  | 0x5c :: 0x75 :: a :: b :: c :: d :: 0x5c :: 0x75 :: e :: f :: g :: h :: rest => do
    let n ← hex4? a b c d
    if 0xd800 ≤ n ∧ n ≤ 0xdbff then
      let m ← hex4? e f g h
      if 0xdc00 ≤ m ∧ m ≤ 0xdfff then
        let code := 0x10000 + (n - 0xd800) * 0x400 + (m - 0xdc00)
        (unescape rest).map (String.utf8EncodeChar (Char.ofNat code) ++ ·)
      else none
    else if 0xdc00 ≤ n ∧ n ≤ 0xdfff then none
    else
      (unescape (0x5c :: 0x75 :: e :: f :: g :: h :: rest)).map
        (String.utf8EncodeChar (Char.ofNat n) ++ ·)
  | 0x5c :: 0x75 :: a :: b :: c :: d :: rest => do
    let n ← hex4? a b c d
    if 0xd800 ≤ n ∧ n ≤ 0xdfff then none
    else (unescape rest).map (String.utf8EncodeChar (Char.ofNat n) ++ ·)
  | 0x5c :: _ => none
  | b :: rest => (unescape rest).map (b :: ·)

/-- The text that the inside of a string stands for. -/
def meaning? (written : List UInt8) : Option String :=
  ((unescape written).bind Text.Utf8.decode?).map String.ofList

/-- The magnitude of decimal digits. -/
def digitsValue (ds : List UInt8) : Option Nat :=
  ds.foldl (fun acc d => do
    let n ← acc
    if 0x30 ≤ d.toNat ∧ d.toNat ≤ 0x39 then some (n * 10 + (d.toNat - 0x30)) else none) (some 0)

/-- The integer that a number stands for: it has no point or exponent, it is not minus zero, and
it fits 64 bits in two's complement. -/
def int64? : List UInt8 → Option Int
  | 0x2d :: ds => do
    let n ← digitsValue ds
    if n = 0 ∨ Nat.pow 2 63 < n then none else some (- Int.ofNat n)
  | ds => do
    let n ← digitsValue ds
    if Nat.pow 2 63 ≤ n then none else some (Int.ofNat n)

namespace Value

/-- A string with the given meaning. -/
def ofText (s : String) : Value := .text (escape s)

/-- A number with the given meaning. -/
def ofInt (i : Int) : Value := .number (octets (toString i))

/-- The text of a string. -/
def text? : Value → Option String
  | .text w => meaning? w
  | _ => none

/-- The integer of a number. -/
def int? : Value → Option Int
  | .number w => int64? w
  | _ => none

/-- The truth value. -/
def bool? : Value → Option Bool
  | .bool b => some b
  | _ => none

/-- A value that may be left out by writing `null`. -/
def optional {α : Type} (read : Value → Option α) : Value → Option (Option α)
  | .null => some none
  | v => (read v).map some

/-! ## Writing -/

mutual

/-- The octets of a tree, without blanks. -/
def render : Value → List UInt8
  | .null => octets "null"
  | .bool b => octets (if b then "true" else "false")
  | .number w => w
  | .text w => 0x22 :: w ++ [0x22]
  | .array items => 0x5b :: renderItems items ++ [0x5d]
  | .object members => 0x7b :: renderMembers members ++ [0x7d]

/-- The items of an array with commas between. -/
def renderItems : List Value → List UInt8
  | [] => []
  | [v] => render v
  | v :: rest => render v ++ 0x2c :: renderItems rest

/-- The members of an object with commas between. -/
def renderMembers : List (List UInt8 × Value) → List UInt8
  | [] => []
  | [(k, v)] => 0x22 :: k ++ 0x22 :: 0x3a :: render v
  | (k, v) :: rest => 0x22 :: k ++ 0x22 :: 0x3a :: render v ++ 0x2c :: renderMembers rest

end

end Value

end BorderSync.Json
