/-
# BorderSync.Tls.Key -- the public half of a private key

A private key belongs to a certificate when its public half, written the way certificates write
public keys, is the key in the certificate. A key that is none of the known sorts has no public
half.
-/
import BorderSync.Tls.Curve
import BorderSync.Tls.Pem

namespace BorderSync.Tls.Key

open Der

/-- The octets of a length. -/
def lengthOctets (n : Nat) : List UInt8 :=
  if n < 0x80 then [UInt8.ofNat n]
  else if n < 0x100 then [0x81, UInt8.ofNat n]
  else 0x82 :: Curve.highFirst 2 n

/-- An element in octets. -/
def write (tag : UInt8) (content : List UInt8) : List UInt8 :=
  tag :: lengthOctets content.length ++ content

/-- A bit string of whole octets. -/
def writeBits (content : List UInt8) : List UInt8 :=
  write tagBits (0 :: content)

/-- The object identifier of RSA keys. -/
def rsaId : List UInt8 := [0x2a, 0x86, 0x48, 0x86, 0xf7, 0x0d, 0x01, 0x01, 0x01]

/-- The object identifier of keys on short curves. -/
def curveId : List UInt8 := [0x2a, 0x86, 0x48, 0xce, 0x3d, 0x02, 0x01]

/-- The object identifier of keys with a seed. -/
def seedId : List UInt8 := [0x2b, 0x65, 0x70]

/-- The public half of an RSA key: modulus and exponent. -/
def ofRsa (bytes : List UInt8) : Except Fault (List UInt8) := do
  let (outer, _) ← expect tagSequence bytes
  let (_, rest) ← expect tagInteger outer.content
  let (modulus, rest) ← expect tagInteger rest
  let (exponent, rest) ← expect tagInteger rest
  let (_, rest) ← expect tagInteger rest
  let (_, rest) ← expect tagInteger rest
  let (_, rest) ← expect tagInteger rest
  let (_, rest) ← expect tagInteger rest
  let (_, rest) ← expect tagInteger rest
  let (_, _) ← expect tagInteger rest
  let pair := write tagSequence (write tagInteger modulus.content ++ write tagInteger exponent.content)
  return write tagSequence (write tagObject rsaId ++ [0x05, 0x00]) ++ writeBits pair

/-- The element marked with `n`, if it comes next or after others that are marked. -/
def marked? (n : UInt8) (bytes : List UInt8) : Except Fault (Option (List UInt8)) := do
  if bytes.isEmpty then return none
  let (first, rest) ← element bytes
  if first.tag = tagMarked n then return some first.content
  else if rest.isEmpty then return none
  else
    let (second, _) ← element rest
    return if second.tag = tagMarked n then some second.content else none

/-- The curve with the given object identifier. -/
def curve? (id : List UInt8) : Except Fault Curve.Short :=
  match Curve.Short.all.find? fun c => c.objectId == id with
  | some c => .ok c
  | none => .error .badLength

/-- The public half of a key on a short curve; the curve may be known from outside. -/
def ofCurve (known : Option (List UInt8)) (bytes : List UInt8) : Except Fault (List UInt8) := do
  let (outer, _) ← expect tagSequence bytes
  let (_, rest) ← expect tagInteger outer.content
  let (secret, rest) ← expect tagOctets rest
  let named ← marked? 0 rest
  let id ← match known, named with
    | some id, _ => pure id
    | none, some inner => do
      let (e, _) ← expect tagObject inner
      pure e.content
    | none, none => .error .badLength
  let curve ← curve? id
  let point ← match ← marked? 1 rest with
    | some inner => do
      let (bits, _) ← expect tagBits inner
      pure (bits.content.drop 1)
    | none => pure (curve.pointOf (bigEndian secret.content))
  return write tagSequence (write tagObject curveId ++ write tagObject curve.objectId)
    ++ writeBits point

/-- The public half of a key with a seed. -/
def ofSeed (bytes : List UInt8) : Except Fault (List UInt8) := do
  let (seed, _) ← expect tagOctets bytes
  if seed.content.length = 32 then
    return write tagSequence (write tagObject seedId)
      ++ writeBits (Curve.Twisted.pointOfSeed seed.content)
  else .error .badLength

/-- The public half of a key that names its own sort. -/
def ofGeneral (bytes : List UInt8) : Except Fault (List UInt8) := do
  let (outer, _) ← expect tagSequence bytes
  let (_, rest) ← expect tagInteger outer.content
  let (sort, rest) ← expect tagSequence rest
  let (inner, _) ← expect tagOctets rest
  let (id, detail) ← expect tagObject sort.content
  if id.content = rsaId then ofRsa inner.content
  else if id.content = curveId then do
    let (curve, _) ← expect tagObject detail
    ofCurve (some curve.content) inner.content
  else if id.content = seedId then ofSeed inner.content
  else .error .badLength

/-- **The public half** of a private key, as a certificate would hold it. -/
def publicHalf? (key : Pem.PrivateKey) : Option (List UInt8) :=
  (match key.form with
   | .rsa => ofRsa key.content
   | .ec => ofCurve none key.content
   | .general => ofGeneral key.content).toOption

end BorderSync.Tls.Key
