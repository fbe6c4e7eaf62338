/-
# BorderSync.Json.Reader -- the JSON grammar

`Value.read?` accepts exactly one JSON value with blanks around it. It checks the grammar of
numbers and strings but keeps them as written. Nesting is not limited; the step counts of the
recursive readers come from the length of the text.
-/
import BorderSync.Json.Value

namespace BorderSync.Json

/-- Blank octets between the parts of a text. -/
def isBlank (b : UInt8) : Bool :=
  b == 0x20 || b == 0x09 || b == 0x0a || b == 0x0d

/-- Drop blanks. -/
def skipBlank (s : List UInt8) : List UInt8 :=
  s.dropWhile isBlank

/-- A decimal digit. -/
def isDigit (b : UInt8) : Bool :=
  0x30 ≤ b && b ≤ 0x39

/-- The digits at the head, and the rest. -/
def digits (s : List UInt8) : List UInt8 × List UInt8 :=
  (s.takeWhile isDigit, s.dropWhile isDigit)

/-- At least one digit. -/
def digits1? (s : List UInt8) : Option (List UInt8 × List UInt8) :=
  match digits s with
  | ([], _) => none
  | p => some p

/-- A whole number without sign: zero, or digits that do not begin with zero. -/
def whole? : List UInt8 → Option (List UInt8 × List UInt8)
  | 0x30 :: rest => if (rest.head?.map isDigit).getD false then none else some ([0x30], rest)
  | s => digits1? s

/-- The places after a point, if there is one. -/
def places? : List UInt8 → Option (List UInt8 × List UInt8)
  | 0x2e :: rest => (digits1? rest).map fun p => (0x2e :: p.1, p.2)
  | s => some ([], s)

/-- Whether an octet begins an exponent. -/
def isExponentMark (b : UInt8) : Bool :=
  b == 0x65 || b == 0x45

/-- The exponent, if there is one. -/
def exponent? : List UInt8 → Option (List UInt8 × List UInt8)
  | [] => some ([], [])
  | b :: rest =>
    if isExponentMark b then
      match rest with
      | 0x2b :: r => (digits1? r).map fun p => (b :: 0x2b :: p.1, p.2)
      | 0x2d :: r => (digits1? r).map fun p => (b :: 0x2d :: p.1, p.2)
      | r => (digits1? r).map fun p => (b :: p.1, p.2)
    else some ([], b :: rest)

/-- A number without sign. -/
def unsigned? (s : List UInt8) : Option (List UInt8 × List UInt8) := do
  let (w, r) ← whole? s
  let (p, r) ← places? r
  let (e, r) ← exponent? r
  return (w ++ p ++ e, r)

/-- A number. -/
def number? : List UInt8 → Option (List UInt8 × List UInt8)
  | 0x2d :: rest => (unsigned? rest).map fun p => (0x2d :: p.1, p.2)
  | s => unsigned? s

/-- An octet that may follow a backslash on its own. -/
def isShortEscape (b : UInt8) : Bool :=
  b == 0x22 || b == 0x5c || b == 0x2f || b == 0x62 || b == 0x66 || b == 0x6e || b == 0x72 || b == 0x74

/-- The inside of a string up to its closing quote, and what follows the quote. -/
def inside? : List UInt8 → Option (List UInt8 × List UInt8)
  | [] => none
  | 0x22 :: rest => some ([], rest)
  | 0x5c :: 0x75 :: a :: b :: c :: d :: rest =>
    if (hex4? a b c d).isSome then
      (inside? rest).map fun p => (0x5c :: 0x75 :: a :: b :: c :: d :: p.1, p.2)
    else none
  | 0x5c :: e :: rest =>
    if isShortEscape e then (inside? rest).map fun p => (0x5c :: e :: p.1, p.2) else none
  | b :: rest =>
    if b < 0x20 || b == 0x5c then none else (inside? rest).map fun p => (b :: p.1, p.2)

/-- A key with its colon. -/
def key? : List UInt8 → Option (List UInt8 × List UInt8)
  | 0x22 :: rest => do
    let (k, r) ← inside? rest
    match skipBlank r with
    | 0x3a :: r => return (k, r)
    | _ => none
  | _ => none

mutual

/-- One value; `n` bounds the number of steps. -/
def value? : Nat → List UInt8 → Option (Value × List UInt8)
  | 0, _ => none
  | n + 1, s =>
    match skipBlank s with
    | 0x6e :: 0x75 :: 0x6c :: 0x6c :: rest => some (.null, rest)
    | 0x74 :: 0x72 :: 0x75 :: 0x65 :: rest => some (.bool true, rest)
    | 0x66 :: 0x61 :: 0x6c :: 0x73 :: 0x65 :: rest => some (.bool false, rest)
    | 0x22 :: rest => (inside? rest).map fun p => (.text p.1, p.2)
    | 0x5b :: rest =>
      match skipBlank rest with
      | 0x5d :: r => some (.array [], r)
      | r => (items? n r).map fun p => (.array p.1, p.2)
    | 0x7b :: rest =>
      match skipBlank rest with
      | 0x7d :: r => some (.object [], r)
      | r => (members? n r).map fun p => (.object p.1, p.2)
    | r => (number? r).map fun p => (.number p.1, p.2)

/-- The items of an array up to its closing bracket. -/
def items? : Nat → List UInt8 → Option (List Value × List UInt8)
  | 0, _ => none
  | n + 1, s => do
    let (v, r) ← value? n s
    match skipBlank r with
    | 0x5d :: r => return ([v], r)
    | 0x2c :: r =>
      let (vs, r) ← items? n r
      return (v :: vs, r)
    | _ => none

/-- The members of an object up to its closing brace. -/
def members? : Nat → List UInt8 → Option (List (List UInt8 × Value) × List UInt8)
  | 0, _ => none
  | n + 1, s => do
    let (k, r) ← key? (skipBlank s)
    let (v, r) ← value? n r
    match skipBlank r with
    | 0x7d :: r => return ([(k, v)], r)
    | 0x2c :: r =>
      let (ms, r) ← members? n r
      return ((k, v) :: ms, r)
    | _ => none

end

/-- **Read one value**, with nothing but blanks around it. -/
def Value.read? (s : List UInt8) : Option Value :=
  match value? (2 * s.length + 2) s with
  | some (v, r) => if (skipBlank r).isEmpty then some v else none
  | none => none

end BorderSync.Json
