/-
# BorderSync.Text.Utf8 -- octets and the characters they spell

Octets arrive from files and from border servers and need not be well-formed UTF-8. `scan` splits
any octet sequence into characters and faults, one fault for each longest run of octets that begins
a character and cannot be finished. Strict reading refuses every fault, lenient reading shows the
replacement character for it.
-/

namespace BorderSync.Text.Utf8

/-- What is still owed of a character that has begun: how many octets, the range the next one must
lie in, and the bits gathered so far. -/
structure Owed where
  count : Nat
  low : Nat
  high : Nat
  bits : Nat

/-- No character has begun. -/
def Owed.nothing : Owed := ⟨0, 0, 0, 0⟩

/-- What the first octet of a character says: a whole character, a fault, or what is owed. -/
def start (b : UInt8) : List (Option Char) × Owed :=
  let n := b.toNat
  if n < 0x80 then ([some (Char.ofNat n)], .nothing)
  else if 0xc2 ≤ n ∧ n ≤ 0xdf then ([], ⟨1, 0x80, 0xbf, n - 0xc0⟩)
  else if n = 0xe0 then ([], ⟨2, 0xa0, 0xbf, 0⟩)
  else if n = 0xed then ([], ⟨2, 0x80, 0x9f, 0xd⟩)
  else if 0xe1 ≤ n ∧ n ≤ 0xef then ([], ⟨2, 0x80, 0xbf, n - 0xe0⟩)
  else if n = 0xf0 then ([], ⟨3, 0x90, 0xbf, 0⟩)
  else if 0xf1 ≤ n ∧ n ≤ 0xf3 then ([], ⟨3, 0x80, 0xbf, n - 0xf0⟩)
  else if n = 0xf4 then ([], ⟨3, 0x80, 0x8f, 4⟩)
  else ([none], .nothing)

/-- The characters (`some`) and faults (`none`) of an octet sequence, when `owed` is pending. -/
def scanFrom (owed : Owed) : List UInt8 → List (Option Char)
  | [] => if owed.count = 0 then [] else [none]
  | b :: rest =>
    if owed.count = 0 then
      let (out, next) := start b
      out ++ scanFrom next rest
    else if owed.low ≤ b.toNat ∧ b.toNat ≤ owed.high then
      let bits := owed.bits * 64 + (b.toNat - 0x80)
      if owed.count = 1 then some (Char.ofNat bits) :: scanFrom .nothing rest
      else scanFrom ⟨owed.count - 1, 0x80, 0xbf, bits⟩ rest
    else
      let (out, next) := start b
      none :: (out ++ scanFrom next rest)

/-- The characters and faults of an octet sequence. -/
def scan (bytes : List UInt8) : List (Option Char) :=
  scanFrom .nothing bytes

/-- **Strict reading**: the characters, if there is no fault. -/
def decode? (bytes : List UInt8) : Option (List Char) :=
  (scan bytes).mapM id

/-- **Lenient reading**: U+FFFD stands for each fault. -/
def decodeLossy (bytes : List UInt8) : List Char :=
  (scan bytes).map fun c => c.getD '\ufffd'

/-- The octets of a text. -/
def encode (s : List Char) : List UInt8 :=
  s.flatMap String.utf8EncodeChar

/-- The octets that mark UTF-8 at the beginning of a stream. -/
def mark : List UInt8 := [0xef, 0xbb, 0xbf]

/-- Drop one mark at the beginning. -/
def dropMark : List UInt8 → List UInt8
  | 0xef :: 0xbb :: 0xbf :: rest => rest
  | bytes => bytes

end BorderSync.Text.Utf8
