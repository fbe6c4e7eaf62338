/-
# BorderSync.Endpoint.Host -- host names and addresses in an endpoint

A host is an IPv6 address in brackets, an IPv4 address in any of its spellings, or a name. Each is
brought to one written form: lower case, percent escapes read, international labels in plain
letters, addresses in their shortest notation.
-/
import BorderSync.Endpoint.Punycode
import BorderSync.Text.Blank
import BorderSync.Text.Percent
import BorderSync.Text.Ranges

namespace BorderSync.Endpoint

/-- Why a text is not an endpoint. -/
inductive Fault where
  | noScheme
  | emptyHost
  | badDomain
  | badPort
  | badIPv4
  | badIPv6
  | badDomainCharacter
  deriving DecidableEq, Repr

/-- The words for a fault. -/
def Fault.message : Fault → String
  | .noScheme => "relative URL without a base"
  | .emptyHost => "empty host"
  | .badDomain => "invalid international domain name"
  | .badPort => "invalid port number"
  | .badIPv4 => "invalid IPv4 address"
  | .badIPv6 => "invalid IPv6 address"
  | .badDomainCharacter => "invalid domain character"

namespace Host

/-! ## Numbers in addresses -/

/-- The number that digits of the given base spell, if all are digits of it. -/
def digits? (base : Nat) (cs : List Char) : Option Nat :=
  cs.foldl (fun acc c => do
    let n ← acc
    let d ← Text.Percent.hexValue? c
    if d < base then some (n * base + d) else none) (some 0)

/-- One part of an IPv4 address: hexadecimal after `0x`, octal after `0`, else decimal. -/
def ipv4Part? : List Char → Option Nat
  | [] => none
  | '0' :: 'x' :: rest => digits? 16 rest
  | '0' :: 'X' :: rest => digits? 16 rest
  | '0' :: rest => digits? 8 rest
  | cs => digits? 10 cs

/-- The labels of a name, without an empty last one. -/
def labels (name : List Char) : List (List Char) :=
  let ls := Text.splitOnChar '.' name
  if ls.getLast? = some [] then ls.dropLast else ls

/-- The name looks like an IPv4 address: its last label is a number. -/
def endsInNumber (name : List Char) : Bool :=
  match (labels name).getLast? with
  | none => false
  | some [] => false
  | some l =>
    l.all Char.isDigit ||
      (match l with
       | '0' :: 'x' :: rest => (digits? 16 rest).isSome
       | '0' :: 'X' :: rest => (digits? 16 rest).isSome
       | _ => false)

/-- The value of an IPv4 address: all parts but the last one fill one octet each. -/
def ipv4Value? (parts : List Nat) : Option Nat :=
  match parts.getLast? with
  | none => none
  | some last =>
    let lead := parts.dropLast
    if 4 < parts.length || lead.any (255 < ·) || Nat.pow 256 (5 - parts.length) ≤ last then none
    else
      some (lead.zipIdx.foldl (fun n p => n + p.1 * Nat.pow 256 (3 - p.2)) last)

/-- Four octets with dots between. -/
def ipv4Text (n : Nat) : List Char :=
  ".".intercalate ([n / 16777216, n / 65536 % 256, n / 256 % 256, n % 256].map toString) |>.toList

/-- An IPv4 address in its usual notation. -/
def ipv4 (name : List Char) : Except Fault (List Char) :=
  match (labels name).mapM ipv4Part? with
  | none => .error .badIPv4
  | some parts =>
    match ipv4Value? parts with
    | none => .error .badIPv4
    | some n => .ok (ipv4Text n)

/-! ## IPv6 -/

/-- One group of an IPv6 address: one to four hexadecimal digits. -/
def group? (cs : List Char) : Option Nat :=
  if cs.isEmpty || 4 < cs.length then none else digits? 16 cs

/-- A decimal octet without superfluous zeros. -/
def octet? (cs : List Char) : Option Nat := do
  let n ← if cs.isEmpty || 3 < cs.length then none else digits? 10 cs
  if 255 < n || (1 < cs.length && cs.head? == some '0') then none else some n

/-- Groups between colons; the last one may be an IPv4 address, which makes two. -/
def groups? (final : Bool) : List (List Char) → Option (List Nat)
  | [] => some []
  | [g] =>
    if final && g.contains '.' then
      match (Text.splitOnChar '.' g).mapM octet? with
      | some [a, b, c, d] => some [a * 256 + b, c * 256 + d]
      | _ => none
    else (group? g).map fun n => [n]
  | g :: rest => do
    let n ← group? g
    let ns ← groups? final rest
    some (n :: ns)

/-- Cut at the first double colon. -/
def splitDouble : List Char → Option (List Char × List Char)
  | [] => none
  | ':' :: ':' :: rest => some ([], rest)
  | c :: rest => (splitDouble rest).map fun p => (c :: p.1, p.2)

/-- The groups of one side of a double colon. -/
def side? (final : Bool) (cs : List Char) : Option (List Nat) :=
  if cs.isEmpty then some [] else groups? final (Text.splitOnChar ':' cs)

/-- The eight groups of an IPv6 address. -/
def ipv6Groups? (cs : List Char) : Option (List Nat) :=
  match splitDouble cs with
  | none =>
    match side? true cs with
    | some ns => if ns.length = 8 then some ns else none
    | none => none
  | some (left, right) =>
    match side? false left, side? true right with
    | some ls, some rs =>
      if ls.length + rs.length < 8 then
        some (ls ++ List.replicate (8 - ls.length - rs.length) 0 ++ rs)
      else none
    | _, _ => none

/-- Length of the run of zeros at the head. -/
def zeroRun (ns : List Nat) : Nat :=
  (ns.takeWhile (· == 0)).length

/-- Where the first longest run of at least two zero groups begins, and how long it is. -/
def longestZeros (ns : List Nat) : Option (Nat × Nat) :=
  let runs := (List.range ns.length).map fun i => (i, zeroRun (ns.drop i))
  let best := runs.foldl (fun b r => if b.2 < r.2 then r else b) (0, 0)
  if best.2 < 2 then none else some best

/-- Groups in hexadecimal with colons between. -/
def joinGroups (ns : List Nat) : String :=
  ":".intercalate (ns.map fun n => String.ofList (Nat.toDigits 16 n))

/-- The shortest notation of eight groups. -/
def ipv6Text (ns : List Nat) : String :=
  match longestZeros ns with
  | none => joinGroups ns
  | some (at_, len) => joinGroups (ns.take at_) ++ "::" ++ joinGroups (ns.drop (at_ + len))

/-! ## Names -/

/-- Characters that no host may hold. -/
def forbidden (c : Char) : Bool :=
  ['\x00', '\t', '\n', '\r', ' ', '#', '/', ':', '<', '>', '?', '@', '[', '\\', ']', '^', '|'].contains c

/-- Characters that no name may hold. -/
def forbiddenInName (c : Char) : Bool :=
  Text.Percent.isControl c || forbidden c || c == '%'

/-- Lower case for the alphabets with a regular layout, and half width for what is full-width; soft hyphens and the
like vanish. Other characters stay as they are, those that stand for others as well. -/
def foldCase (c : Char) : List Char :=
  let n := c.toNat
  if 0x41 ≤ n ∧ n ≤ 0x5a then [Char.ofNat (n + 32)]
  else if n = 0xad ∨ n = 0x200b ∨ n = 0x2060 ∨ n = 0xfeff then []
  else if 0xc0 ≤ n ∧ n ≤ 0xde ∧ n ≠ 0xd7 then [Char.ofNat (n + 32)]
  else if (0x100 ≤ n ∧ n ≤ 0x137 ∧ n ≠ 0x130) ∨ (0x14a ≤ n ∧ n ≤ 0x177) then
    [if n % 2 = 0 then Char.ofNat (n + 1) else c]
  else if 0x391 ≤ n ∧ n ≤ 0x3a9 then [Char.ofNat (n + 32)]
  else if 0x410 ≤ n ∧ n ≤ 0x42f then [Char.ofNat (n + 32)]
  else if 0x400 ≤ n ∧ n ≤ 0x40f then [Char.ofNat (n + 80)]
  else if n = 0x3002 ∨ n = 0xff0e ∨ n = 0xff61 then ['.']
  else if 0xff21 ≤ n ∧ n ≤ 0xff3a then [Char.ofNat (n - 0xff21 + 0x61)]
  else if 0xff01 ≤ n ∧ n ≤ 0xff5e then [Char.ofNat (n - 0xff01 + 0x21)]
  else [c]

/-- What a label begins with that is written in plain letters. -/
def plainMarker : List Char :=
  "xn--".toList

/-- All letters of a label are plain. -/
def isPlain (l : List Char) : Bool :=
  l.all fun c => decide (c.toNat < 0x80)

/-- One label in plain letters. -/
def plainLabel (l : List Char) : List Char :=
  if isPlain l then l else plainMarker ++ Punycode.encode l

/-- The characters of a label could stand in a name. -/
def charsAllowed (l : List Char) : Bool :=
  !(l.any fun c => forbiddenInName c || c == '\ufffd' || Text.Ranges.covers Text.Ranges.unprintable c)
    && !((l.head?.map (Text.Ranges.covers Text.Ranges.extending)).getD false)

/-- The label could stand in a name. If it is written in plain letters, then there is a label which is
written so, and which would not be written in another way. -/
def labelAllowed (l : List Char) : Bool :=
  charsAllowed l &&
    match Text.stripLead? plainMarker l with
    | none => true
    | some written =>
      match Punycode.decode? written with
      | none => false
      | some shown => !isPlain shown && charsAllowed shown && shown.flatMap foldCase == shown

/-- A name in plain lower-case letters. -/
def name (raw : List Char) : Except Fault (List Char) :=
  let shown := (Text.Utf8.decodeLossy (Text.Percent.decode raw)).flatMap foldCase
  let ls := Text.splitOnChar '.' shown
  if ls.all labelAllowed then
    .ok (List.intercalate ['.'] (ls.map plainLabel))
  else .error .badDomain

/-- The inside of a pair of brackets that spans the whole text. -/
def bracketed? (cs : List Char) : Option (List Char) :=
  if cs.getLast? = some ']' then some (cs.drop 1).dropLast else none

/-- An IPv6 address in brackets. -/
def ipv6 (raw : List Char) : Except Fault String :=
  match (bracketed? raw).bind ipv6Groups? with
  | none => .error .badIPv6
  | some ns => .ok ("[" ++ ipv6Text ns ++ "]")

/-- **The written form of a host.** -/
def parse (raw : List Char) : Except Fault String := do
  if raw.isEmpty then .error .emptyHost
  else if raw.head? = some '[' then ipv6 raw
  else
    let plain ← name raw
    if plain.isEmpty then .error .emptyHost
    else if endsInNumber plain then return String.ofList (← ipv4 plain)
    else return String.ofList plain

/-- A host of a scheme that is not known: any text without delimiters, with controls escaped. -/
def parseForeign (raw : List Char) : Except Fault String :=
  if raw.head? = some '[' then ipv6 raw
  else if raw.any forbidden then .error .badDomainCharacter
  else .ok (String.ofList (Text.Percent.encode Text.Percent.isControl raw))

end Host

end BorderSync.Endpoint
