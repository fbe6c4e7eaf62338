/-
# BorderSync.Text.Decimal -- whole numbers in decimal

Readers of whole numbers that say why they refuse a text. A number fits a range given by its ends;
a sign is read only as the format allows.
-/

namespace BorderSync.Text.Decimal

/-- Why a text is not a whole number of the wanted range. -/
inductive Fault where
  | empty
  | invalidDigit
  | tooLarge
  | tooSmall
  deriving DecidableEq, Repr

/-- The words for a fault. -/
def Fault.message : Fault → String
  | .empty => "cannot parse integer from empty string"
  | .invalidDigit => "invalid digit found in string"
  | .tooLarge => "number too large to fit in target type"
  | .tooSmall => "number too small to fit in target type"

/-- The value of an ASCII decimal digit. -/
def digit? (c : Char) : Option Nat :=
  if '0' ≤ c ∧ c ≤ '9' then some (c.toNat - '0'.toNat) else none

/-- Digits from the left: a wrong digit is reported unless the bound was passed before it. -/
def magnitude (bound : Nat) (fault : Fault) : (acc : Nat) → List Char → Except Fault Nat
  | acc, [] => .ok acc
  | acc, c :: rest =>
    match digit? c with
    | none => .error .invalidDigit
    | some d =>
      let next := acc * 10 + d
      if bound < next then .error fault else magnitude bound fault next rest

/-- A whole number from 0 to `bound`, with an optional plus sign. -/
def readNat (bound : Nat) (s : String) : Except Fault Nat :=
  match s.toList with
  | [] => .error .empty
  | ['+'] => .error .invalidDigit
  | '+' :: rest => magnitude bound .tooLarge 0 rest
  | cs => magnitude bound .tooLarge 0 cs

/-- A whole number of 64 bits in two's complement, with an optional sign. -/
def readInt64 (s : String) : Except Fault Int :=
  match s.toList with
  | [] => .error .empty
  | ['+'] => .error .invalidDigit
  | ['-'] => .error .invalidDigit
  | '+' :: rest => (magnitude (Nat.pow 2 63 - 1) .tooLarge 0 rest).map Int.ofNat
  | '-' :: rest => (magnitude (Nat.pow 2 63) .tooSmall 0 rest).map fun n => - Int.ofNat n
  | cs => (magnitude (Nat.pow 2 63 - 1) .tooLarge 0 cs).map Int.ofNat

end BorderSync.Text.Decimal
