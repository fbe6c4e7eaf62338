/-
# BorderSync.Tls.Der -- tagged elements

Certificates and keys are nested elements: a tag, a length and that many octets of content. An
element that announces more content than there is, or whose head breaks off, is a fault.
-/

namespace BorderSync.Tls

/-- Why octets are not the wanted element. -/
inductive Der.Fault where
  | headBreaksOff
  | contentBreaksOff
  | wrongTag (expected actual : Nat)
  | badLength
  | badVersion
  deriving DecidableEq, Repr

/-- The words for a fault. -/
def Der.Fault.message : Der.Fault → String
  | .headBreaksOff => "Parsing requires 1 bytes/chars"
  | .contentBreaksOff => "Parsing Error: NomError(Eof)"
  | .wrongTag expected actual =>
    "Parsing Error: Der(UnexpectedTag \x7b expected: Some(Tag(" ++ toString expected
      ++ ")), actual: Tag(" ++ toString actual ++ ") \x7d)"
  | .badLength => "Parsing Error: Der(InvalidLength)"
  | .badVersion => "Parsing Error: InvalidVersion"

namespace Der

/-- **Element**: its first octet and its content. -/
structure Element where
  tag : UInt8
  content : List UInt8
  deriving DecidableEq, Repr

/-- The number of a tag, without its class. -/
def Element.tagNumber (e : Element) : Nat :=
  e.tag.toNat % 32

/-- A number in base 256. -/
def bigEndian (bytes : List UInt8) : Nat :=
  bytes.foldl (fun acc b => acc * 256 + b.toNat) 0

/-- A length, and what follows it. -/
def length : List UInt8 → Except Fault (Nat × List UInt8)
  | [] => .error .headBreaksOff
  | b :: rest =>
    if b < 0x80 then .ok (b.toNat, rest)
    else
      let n := b.toNat - 0x80
      if n = 0 ∨ n = 127 then .error .badLength
      else if rest.length < n then .error .headBreaksOff
      else .ok (bigEndian (rest.take n), rest.drop n)

/-- The first element, and what follows it. -/
def element : List UInt8 → Except Fault (Element × List UInt8)
  | [] => .error .headBreaksOff
  | tag :: rest => do
    let (n, body) ← length rest
    if body.length < n then .error .contentBreaksOff
    else return (⟨tag, body.take n⟩, body.drop n)

/-- The first element, which must have the given tag. -/
def expect (tag : UInt8) (bytes : List UInt8) : Except Fault (Element × List UInt8) := do
  let (e, rest) ← element bytes
  if e.tag = tag then return (e, rest)
  else .error (.wrongTag (tag.toNat % 32) e.tagNumber)

/-- The tags in use. -/
def tagInteger : UInt8 := 0x02

/-- Bit string. -/
def tagBits : UInt8 := 0x03

/-- Octet string. -/
def tagOctets : UInt8 := 0x04

/-- Object identifier. -/
def tagObject : UInt8 := 0x06

/-- Sequence. -/
def tagSequence : UInt8 := 0x30

/-- An element marked with a number, which holds others. -/
def tagMarked (n : UInt8) : UInt8 := 0xa0 + n

end Der

end BorderSync.Tls
