/-
# BorderSync.Tls.Certificate -- the outline of a certificate

A certificate is read down to the parts that decide whether it can be used: its version and its
public key. Names, dates and extensions are checked for their outline only.
-/
import BorderSync.Tls.Der

namespace BorderSync.Tls

open Der

/-- **Certificate**, as far as it is looked into. -/
structure Certificate where
  version : Nat
  publicKey : List UInt8
  trailing : List UInt8
  deriving DecidableEq, Repr

namespace Certificate

/-- The version; it is left out for the first one. -/
def readVersion (body : List UInt8) : Except Fault (Nat × List UInt8) :=
  if body.head? = some (tagMarked 0) then do
    let (e, rest) ← element body
    let (n, _) ← expect tagInteger e.content
    return (bigEndian n.content + 1, rest)
  else .ok (1, body)

/-- The elements of the signed part: version, serial number, algorithm, issuer, validity, subject,
public key, and whatever follows. -/
def signedPart (body : List UInt8) : Except Fault (Nat × List UInt8) := do
  let (version, rest) ← readVersion body
  let (_, rest) ← expect tagInteger rest
  let (_, rest) ← expect tagSequence rest
  let (_, rest) ← expect tagSequence rest
  let (dates, rest) ← expect tagSequence rest
  let (_, later) ← element dates.content
  let (_, _) ← element later
  let (_, rest) ← expect tagSequence rest
  let (key, _) ← expect tagSequence rest
  return (version, key.content)

/-- **Read a certificate**; octets after it are kept apart. -/
def read (bytes : List UInt8) : Except Fault Certificate := do
  let (outer, trailing) ← expect tagSequence bytes
  let (signed, rest) ← expect tagSequence outer.content
  let (version, key) ← signedPart signed.content
  let (_, rest) ← expect tagSequence rest
  let (_, _) ← expect tagBits rest
  if 3 < version then .error .badVersion
  else return ⟨version, key, trailing⟩

end Certificate

end BorderSync.Tls
