/-
# BorderSync.Endpoint.Punycode -- international labels of a host name in plain letters

A label with characters outside ASCII is written with its plain characters first and then, in the
order of the code points, with the distance to each of the others. Distances have variable length:
the threshold of each digit follows a bias that adapts to the distances seen so far. Reading puts the other
characters back between the plain ones.
-/

namespace BorderSync.Endpoint.Punycode

/-- A digit: letters for 0 to 25, then the decimal digits. -/
def digit (d : Nat) : Char :=
  if d < 26 then Char.ofNat ('a'.toNat + d) else Char.ofNat ('0'.toNat + (d - 26))

/-- The threshold of the digit at position `k`, between 1 and 26. -/
def threshold (k bias : Nat) : Nat :=
  if k ≤ bias then 1 else min 26 (k - bias)

theorem threshold_pos (k bias : Nat) : 1 ≤ threshold k bias := by
  unfold threshold
  split <;> omega

theorem threshold_le (k bias : Nat) : threshold k bias ≤ 26 := by
  unfold threshold
  split <;> omega

/-- Scale a large distance down, counting the steps in units of 36. -/
def scale (delta k : Nat) : Nat × Nat :=
  if 455 < delta then scale (delta / 35) (k + 36) else (delta, k)
termination_by delta
decreasing_by exact Nat.div_lt_self (by omega) (by omega)

/-- The bias after a distance, when `count` characters are written so far. -/
def adapt (delta count : Nat) (first : Bool) : Nat :=
  let halved := if first then delta / 700 else delta / 2
  let r := scale (halved + halved / count) 0
  r.2 + 36 * r.1 / (r.1 + 38)

/-- The digits of one distance, the first one at position `k`. -/
def distance (bias k q : Nat) : List Char :=
  let t := threshold k bias
  if q < t then [digit q]
  else digit (t + (q - t) % (36 - t)) :: distance bias (k + 36) ((q - t) / (36 - t))
termination_by q
decreasing_by
  have low := threshold_pos k bias
  have high := threshold_le k bias
  exact Nat.lt_of_le_of_lt (Nat.div_le_self _ _) (by omega)

/-- The text so far, the distance walked, the bias and the number of characters written. -/
structure Progress where
  out : List Char
  delta : Nat
  bias : Nat
  written : Nat

/-- Pass one character while the characters with code point `m` are being written. -/
def pass (plain m : Nat) (p : Progress) (c : Char) : Progress :=
  if c.toNat < m then { p with delta := p.delta + 1 }
  else if c.toNat = m then
    { out := p.out ++ distance p.bias 36 p.delta
      delta := 0
      bias := adapt p.delta (p.written + 1) (p.written == plain)
      written := p.written + 1 }
  else p

/-- Write the code points `ms`, in ascending order, starting from code point `n`. -/
def writeAll (label : List Char) (plain : Nat) : List Nat → Nat → Progress → Progress
  | [], _, p => p
  | m :: rest, n, p =>
    let walked := { p with delta := p.delta + (m - n) * (p.written + 1) }
    let passed := label.foldl (pass plain m) walked
    writeAll label plain rest (m + 1) { passed with delta := passed.delta + 1 }

/-- A label in plain letters, without the marker that announces it. -/
def encode (label : List Char) : List Char :=
  let plain := label.filter fun c => decide (c.toNat < 0x80)
  let others := ((label.map Char.toNat).filter (0x80 ≤ ·)).eraseDups.mergeSort (· ≤ ·)
  let lead := if plain.isEmpty then [] else plain ++ ['-']
  (writeAll label plain.length others 0x80 ⟨lead, 0, 72, plain.length⟩).out

/-! ## Reading -/

/-- The value of a digit. -/
def digitValue? (c : Char) : Option Nat :=
  if 'a' ≤ c ∧ c ≤ 'z' then some (c.toNat - 'a'.toNat)
  else if '0' ≤ c ∧ c ≤ '9' then some (c.toNat - '0'.toNat + 26)
  else none

/-- One distance, and what comes after its digits; `weight` is that of the digit at position `k`. -/
def distance? (bias k weight sum : Nat) : List Char → Option (Nat × List Char)
  | [] => none
  | c :: rest =>
    match digitValue? c with
    | none => none
    | some d =>
      if d < threshold k bias then some (sum + d * weight, rest)
      else distance? bias (k + 36) (weight * (36 - threshold k bias)) (sum + d * weight) rest

/-- Reading a distance takes characters. -/
theorem length_of_distance? {bias k weight sum : Nat} {cs : List Char} {delta : Nat} {rest : List Char}
    (h : distance? bias k weight sum cs = some (delta, rest)) : rest.length < cs.length := by
  induction cs generalizing k weight sum with
  | nil => simp [distance?] at h
  | cons c cs ih =>
    unfold distance? at h
    cases hd : digitValue? c with
    | none => simp [hd] at h
    | some d =>
      simp only [hd] at h
      split at h
      · obtain ⟨-, rfl⟩ := Prod.mk.inj (Option.some.inj h)
        exact Nat.lt_succ_self _
      · exact Nat.lt_succ_of_lt (ih h)

/-- Put in all characters whose distances follow: the last one that was put in has code point `n`, and the
next place is `place`. -/
def readAll (out : List Char) (n place bias : Nat) (cs : List Char) : Option (List Char) :=
  if cs.isEmpty then some out
  else
    match _h : distance? bias 36 1 0 cs with
    | none => none
    | some (delta, rest) =>
      let count := out.length + 1
      let code := n + (place + delta) / count
      let here := (place + delta) % count
      if (Char.ofNat code).toNat = code then
        readAll (out.insertIdx here (Char.ofNat code)) code (here + 1) (adapt delta count (place == 0)) rest
      else none
termination_by cs.length
decreasing_by exact length_of_distance? _h

/-- The label that is written so in plain letters, if there is one. -/
def decode? (written : List Char) : Option (List Char) :=
  let tail := (written.reverse.takeWhile (· != '-')).reverse
  let lead := (written.take (written.length - tail.length)).dropLast
  match readAll lead 0x80 0 72 tail with
  | some label => if encode label = written then some label else none
  | none => none

end BorderSync.Endpoint.Punycode
