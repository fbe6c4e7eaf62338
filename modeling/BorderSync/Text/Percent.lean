/-
# BorderSync.Text.Percent -- octets written as a percent sign and two hexadecimal digits

A text is written octet by octet in UTF-8; the octets of a given class are replaced by a percent
sign and two upper-case hexadecimal digits. Reading replaces every such triple by its octet and
leaves all else as it is.
-/
import BorderSync.Text.Utf8

namespace BorderSync.Text.Percent

/-- An upper-case hexadecimal digit for a number below 16. -/
def hexDigit (n : Nat) : Char :=
  if n < 10 then Char.ofNat ('0'.toNat + n) else Char.ofNat ('A'.toNat + (n - 10))

/-- The value of a hexadecimal digit of either case. -/
def hexValue? (c : Char) : Option Nat :=
  if '0' ≤ c ∧ c ≤ '9' then some (c.toNat - '0'.toNat)
  else if 'A' ≤ c ∧ c ≤ 'F' then some (c.toNat - 'A'.toNat + 10)
  else if 'a' ≤ c ∧ c ≤ 'f' then some (c.toNat - 'a'.toNat + 10)
  else none

/-- One octet as a triple. -/
def escapeOctet (b : UInt8) : List Char :=
  ['%', hexDigit (b.toNat / 16), hexDigit (b.toNat % 16)]

/-- One character, escaped octet by octet if it is outside ASCII or in the class. -/
def encodeChar (escaped : Char → Bool) (c : Char) : List Char :=
  if 0x7f < c.toNat || escaped c then (String.utf8EncodeChar c).flatMap escapeOctet else [c]

/-- A text with every character of the class escaped. -/
def encode (escaped : Char → Bool) (s : List Char) : List Char :=
  s.flatMap (encodeChar escaped)

/-- The octets that an escaped text stands for. -/
def decode : List Char → List UInt8
  | [] => []
  | '%' :: a :: b :: rest =>
    match hexValue? a, hexValue? b with
    | some x, some y => UInt8.ofNat (x * 16 + y) :: decode rest
    | _, _ => String.utf8EncodeChar '%' ++ decode (a :: b :: rest)
  | c :: rest => String.utf8EncodeChar c ++ decode rest

/-- Control characters of ASCII. -/
def isControl (c : Char) : Bool :=
  decide (c.toNat < 0x20) || c.toNat == 0x7f

/-- Characters escaped in a query; `web` says whether single quotes are among them. -/
def inQuery (web : Bool) (c : Char) : Bool :=
  isControl c || c == ' ' || c == '"' || c == '#' || c == '<' || c == '>' || (web && c == '\'')

/-- Characters escaped in a fragment. -/
def inFragment (c : Char) : Bool :=
  isControl c || c == ' ' || c == '"' || c == '<' || c == '>' || c.toNat == 0x60

/-- Characters escaped in a path that is already cut into segments by slashes. -/
def inPath (c : Char) : Bool :=
  isControl c || c == ' ' || c == '"' || c == '#' || c == '<' || c == '>' || c == '?'
    || c.toNat == 0x60 || c == '\x7b' || c == '\x7d'

/-- Characters escaped in a single segment: also the separators and the percent sign itself; `web` says
whether a backslash separates. -/
def inSegment (web : Bool) (c : Char) : Bool :=
  inPath c || c == '/' || c == '%' || (web && c == '\\')

/-- Characters escaped in a user name or a password. -/
def inCredentials (c : Char) : Bool :=
  inPath c || ['/', ':', ';', '=', '@', '[', '\\', ']', '^', '|'].contains c

/-- Characters that a form field keeps as they are. -/
def keptInForm (c : Char) : Bool :=
  c.isAlphanum || c == '*' || c == '-' || c == '.' || c == '_'

/-- A text as the value of a form field: a space becomes a plus sign. -/
def encodeForm (s : List Char) : List Char :=
  s.flatMap fun c => if c = ' ' then ['+'] else encodeChar (fun d => !keptInForm d) c

end BorderSync.Text.Percent
