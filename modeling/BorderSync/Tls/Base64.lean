/-
# BorderSync.Tls.Base64 -- reading the letters of certificate files

White space between the letters plays no part. The last group of four may be short, with or without
the equals signs that fill it up.
-/

namespace BorderSync.Tls.Base64

/-- Why letters cannot be read. -/
inductive Fault where
  | invalidCharacter (b : UInt8)
  | prematurePadding
  | invalidTrailingPadding
  deriving DecidableEq, Repr

/-- The words for a fault. -/
def Fault.message : Fault → String
  | .invalidCharacter b => "InvalidCharacter(" ++ toString b.toNat ++ ")"
  | .prematurePadding => "PrematurePadding"
  | .invalidTrailingPadding => "InvalidTrailingPadding"

/-- What one octet contributes: nothing, six bits, or a filler. -/
inductive Sign where
  | blank
  | bits (n : Nat)
  | filler
  deriving DecidableEq

/-- The sign of an octet. -/
def sign? (b : UInt8) : Option Sign :=
  let n := b.toNat
  if n = 0x20 ∨ (9 ≤ n ∧ n ≤ 13) then some .blank
  else if 0x41 ≤ n ∧ n ≤ 0x5a then some (.bits (n - 0x41))
  else if 0x61 ≤ n ∧ n ≤ 0x7a then some (.bits (n - 0x61 + 26))
  else if 0x30 ≤ n ∧ n ≤ 0x39 then some (.bits (n - 0x30 + 52))
  else if n = 0x2b then some (.bits 62)
  else if n = 0x2f then some (.bits 63)
  else if n = 0x3d then some .filler
  else none

/-- All signs but the blanks. -/
def signs : List UInt8 → Except Fault (List Sign)
  | [] => .ok []
  | b :: rest =>
    match sign? b with
    | none => .error (.invalidCharacter b)
    | some .blank => signs rest
    | some s => (signs rest).map (s :: ·)

/-- The octets of a last group. -/
def lastGroup : List Sign → Except Fault (List UInt8)
  | [] => .ok []
  | [.bits a, .bits b, .bits c, .bits d] =>
    let n := ((a * 64 + b) * 64 + c) * 64 + d
    .ok [UInt8.ofNat (n / 65536), UInt8.ofNat (n / 256), UInt8.ofNat n]
  | [.bits a, .bits b, .bits c, .filler] | [.bits a, .bits b, .bits c] =>
    let n := (a * 64 + b) * 64 + c
    .ok [UInt8.ofNat (n / 1024), UInt8.ofNat (n / 4)]
  | [.bits a, .bits b, .filler, .filler] | [.bits a, .bits b] =>
    .ok [UInt8.ofNat ((a * 64 + b) / 16)]
  | _ => .error .invalidTrailingPadding

/-- The octets of a list of signs: groups of four, with fillers in the last one only. -/
def groups : List Sign → Except Fault (List UInt8)
  | a :: b :: c :: d :: e :: rest =>
    match a, b, c, d with
    | .bits w, .bits x, .bits y, .bits z =>
      let n := ((w * 64 + x) * 64 + y) * 64 + z
      (groups (e :: rest)).map fun out =>
        UInt8.ofNat (n / 65536) :: UInt8.ofNat (n / 256) :: UInt8.ofNat n :: out
    | _, _, _, _ => .error .prematurePadding
  | s => lastGroup s

/-- **Read letters.** -/
def decode (letters : List UInt8) : Except Fault (List UInt8) :=
  (signs letters).bind groups

end BorderSync.Tls.Base64
