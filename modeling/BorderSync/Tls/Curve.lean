/-
# BorderSync.Tls.Curve -- public points of private keys

A private key on a curve determines its public point: a multiple of the base point. Points are kept
with a common denominator so that one inversion at the end suffices. Two kinds of curve are in use:
the twisted one of the signing keys with a seed, and the short ones of the prime fields.
-/
import BorderSync.Tls.Der
import BorderSync.Tls.Digest

namespace BorderSync.Tls.Curve

/-- `b ^ n` modulo `p`, by squaring; `bits` bounds the length of `n`. -/
def power (p : Nat) : (bits : Nat) → (b n : Nat) → Nat
  | 0, _, _ => 1 % p
  | bits + 1, b, n =>
    let half := power p bits (b * b % p) (n / 2)
    if n % 2 = 1 then b * half % p else half

/-- The inverse modulo a prime. -/
def inverse (p n : Nat) : Nat :=
  power p 1024 n (p - 2)

/-- `count` octets of a number, the lowest first. -/
def lowFirst : (count : Nat) → Nat → List UInt8
  | 0, _ => []
  | count + 1, n => UInt8.ofNat n :: lowFirst count (n / 256)

/-- `count` octets of a number, the highest first. -/
def highFirst (count n : Nat) : List UInt8 :=
  (lowFirst count n).reverse

/-- A multiple in a group: `double` and `plus` are its operations, `n` is read from its lowest bit. -/
def multiple {α : Type} (plus : α → α → α) : (bits : Nat) → (acc base : α) → Nat → α
  | 0, acc, _, _ => acc
  | bits + 1, acc, base, n =>
    multiple plus bits (if n % 2 = 1 then plus acc base else acc) (plus base base) (n / 2)

/-! ## The twisted curve -/

namespace Twisted

/-- The field. -/
def p : Nat := Nat.pow 2 255 - 19

/-- The coefficient of the curve. -/
def d : Nat := (p - 121665) * inverse p 121666 % p

/-- A point with its denominator. -/
structure Point where
  x : Nat
  y : Nat
  z : Nat

/-- The sum of two points. -/
def plus (a b : Point) : Point :=
  let zz := a.z * b.z % p
  let sq := zz * zz % p
  let xx := a.x * b.x % p
  let yy := a.y * b.y % p
  let e := d * (xx * yy % p) % p
  let f := (sq + p - e) % p
  let g := (sq + e) % p
  let cross := ((a.x + a.y) * (b.x + b.y) + 2 * p - xx - yy) % p
  ⟨zz * f % p * cross % p, zz * g % p * ((yy + xx) % p) % p, f * g % p⟩

/-- The base point. -/
def base : Point :=
  ⟨15112221349535400772501151409588531511454012693041857206046113283949847762202,
   46316835694926478169428394003475163141307993866256225615783033603165251855960, 1⟩

/-- The point of a seed, in its written form. -/
def pointOfSeed (seed : List UInt8) : List UInt8 :=
  let low := Der.bigEndian ((Digest.digest seed).take 32).reverse
  let scalar := low % Nat.pow 2 254 / 8 * 8 + Nat.pow 2 254
  let q := multiple plus 255 ⟨0, 1, 1⟩ base scalar
  let inv := inverse p q.z
  let x := q.x * inv % p
  let y := q.y * inv % p
  lowFirst 32 (y + x % 2 * Nat.pow 2 255)

end Twisted

/-! ## Short curves -/

/-- A short curve with coefficient minus three. -/
structure Short where
  objectId : List UInt8
  octets : Nat
  p : Nat
  gx : Nat
  gy : Nat

namespace Short

/-- A point with its denominator: `x / z ^ 2`, `y / z ^ 3`; `z = 0` is the neutral one. -/
structure Point where
  x : Nat
  y : Nat
  z : Nat

/-- Twice a point. -/
def double (p : Nat) (a : Point) : Point :=
  let yy := a.y * a.y % p
  let s := 4 * a.x * yy % p
  let zz := a.z * a.z % p
  let m := 3 * ((a.x + p - zz) % p) * (a.x + zz) % p
  let x := (m * m + 2 * p - s - s) % p
  ⟨x, (m * (s + p - x) + 8 * (p - yy * yy % p)) % p, 2 * a.y * a.z % p⟩

/-- The sum of two points. -/
def plus (p : Nat) (a b : Point) : Point :=
  if a.z = 0 then b
  else if b.z = 0 then a
  else
    let za := a.z * a.z % p
    let zb := b.z * b.z % p
    let u1 := a.x * zb % p
    let u2 := b.x * za % p
    let s1 := a.y * b.z * zb % p
    let s2 := b.y * a.z * za % p
    if u1 = u2 then if s1 = s2 then double p a else ⟨1, 1, 0⟩
    else
      let h := (u2 + p - u1) % p
      let r := (s2 + p - s1) % p
      let hh := h * h % p
      let hhh := h * hh % p
      let v := u1 * hh % p
      let x := (r * r + 3 * p - hhh - v - v) % p
      ⟨x, (r * (v + p - x) + (p - s1) * hhh) % p, h * a.z * b.z % p⟩

/-- The public point of a private number, in its written form. -/
def pointOf (c : Short) (scalar : Nat) : List UInt8 :=
  let q := multiple (plus c.p) (8 * c.octets) ⟨1, 1, 0⟩ ⟨c.gx, c.gy, 1⟩ scalar
  let inv := inverse c.p q.z
  let x := q.x * inv * inv % c.p
  let y := q.y * inv * inv % c.p * inv % c.p
  0x04 :: highFirst c.octets x ++ highFirst c.octets y

/-- The curve of 256 bits. -/
def bits256 : Short where
  objectId := [0x2a, 0x86, 0x48, 0xce, 0x3d, 0x03, 0x01, 0x07]
  octets := 32
  p := Nat.pow 2 256 - Nat.pow 2 224 + Nat.pow 2 192 + Nat.pow 2 96 - 1
  gx := 0x6b17d1f2e12c4247f8bce6e563a440f277037d812deb33a0f4a13945d898c296
  gy := 0x4fe342e2fe1a7f9b8ee7eb4a7c0f9e162bce33576b315ececbb6406837bf51f5

/-- The curve of 384 bits. -/
def bits384 : Short where
  objectId := [0x2b, 0x81, 0x04, 0x00, 0x22]
  octets := 48
  p := Nat.pow 2 384 - Nat.pow 2 128 - Nat.pow 2 96 + Nat.pow 2 32 - 1
  gx := 0xaa87ca22be8b05378eb1c71ef320ad746e1d3b628ba79b9859f741e082542a385502f25dbf55296c3a545e3872760ab7
  gy := 0x3617de4a96262c6f5d9e98bf9292dc29f8f41dbd289a147ce9da3113b5f0b8c00a60b1ce1d7e819d7a431d7c90ea0e5f

/-- The curve of 521 bits. -/
def bits521 : Short where
  objectId := [0x2b, 0x81, 0x04, 0x00, 0x23]
  octets := 66
  p := Nat.pow 2 521 - 1
  gx := 0xc6858e06b70404e9cd9e3ecb662395b4429c648139053fb521f828af606b4d3dbaa14b5e77efe75928fe1dc127a2ffa8de3348b3c1856a429bf97e7e31c2e5bd66
  gy := 0x11839296a789a3bc0045c8a5fb42c7d1bd998f54449579b446817afbd17273e662c97ee72995ef42640c550b9013fad0761353c7086a272c24088be94769fd16650

/-- All short curves. -/
def all : List Short := [bits256, bits384, bits521]

end Short

end BorderSync.Tls.Curve
