/-
# BorderSync.Proofs.Json.Number -- integers are read as they were written

An integer is written by its decimal digits, without zeros in front, and a minus sign if it is negative.
Whoever looks for the end of a number finds it behind the last digit, provided that what follows does not
go on with a number; whoever asks for its meaning gets the integer back, if it fits 64 bits.
-/
import BorderSync.Json.Reader
import Std.Data.String.ToInt

namespace BorderSync.Json

/-! ## Decimal digits -/

/-- The octets of a whole number without sign. -/
def decimal (n : Nat) : List UInt8 :=
  octets (toString n)

theorem octets_append (s t : String) : octets (s ++ t) = octets s ++ octets t := by
  unfold octets Text.Utf8.encode
  rw [String.toList_append, List.flatMap_append]

/-- The octet of a digit. -/
def digitOctet (d : Nat) : UInt8 :=
  UInt8.ofNat (0x30 + d)

theorem encode_digitChar : ∀ d < 10, Text.Utf8.encode [Nat.digitChar d] = [digitOctet d] := by
  decide

theorem decimal_of_lt {n : Nat} (h : n < 10) : decimal n = [digitOctet n] := by
  show Text.Utf8.encode (Nat.repr n).toList = _
  rw [Nat.toList_repr, Nat.toDigits_of_lt_base h, encode_digitChar n h]

theorem decimal_of_le {n : Nat} (h : 10 ≤ n) : decimal n = decimal (n / 10) ++ [digitOctet (n % 10)] := by
  show Text.Utf8.encode (Nat.repr n).toList = Text.Utf8.encode (Nat.repr (n / 10)).toList ++ _
  rw [Nat.toList_repr, Nat.toList_repr, Nat.toDigits_of_base_le (by decide) h,
    ← encode_digitChar _ (Nat.mod_lt n (by decide))]
  unfold Text.Utf8.encode
  rw [List.flatMap_append]

theorem isDigit_digitOctet : ∀ d < 10, isDigit (digitOctet d) = true := by
  decide

theorem digitOctet_ne_zero : ∀ d < 10, d ≠ 0 → digitOctet d ≠ 0x30 := by
  decide

theorem toNat_digitOctet : ∀ d < 10, 0x30 ≤ (digitOctet d).toNat ∧ (digitOctet d).toNat ≤ 0x39 ∧
    (digitOctet d).toNat - 0x30 = d := by
  decide

theorem isDigit_of_mem_decimal {n : Nat} {b : UInt8} (h : b ∈ decimal n) : isDigit b = true := by
  induction n using Nat.strongRecOn with
  | ind n ih =>
    by_cases hn : n < 10
    · rw [decimal_of_lt hn] at h
      rw [List.mem_singleton.mp h]
      exact isDigit_digitOctet n hn
    · rw [decimal_of_le (by omega)] at h
      rcases List.mem_append.mp h with h | h
      · exact ih (n / 10) (by omega) h
      · rw [List.mem_singleton.mp h]
        exact isDigit_digitOctet _ (Nat.mod_lt n (by decide))

/-- There is a first digit, and it is zero for zero only. -/
theorem decimal_eq_cons (n : Nat) : ∃ b rest, decimal n = b :: rest ∧ (n ≠ 0 → b ≠ 0x30) := by
  induction n using Nat.strongRecOn with
  | ind n ih =>
    by_cases hn : n < 10
    · exact ⟨_, [], decimal_of_lt hn, digitOctet_ne_zero n hn⟩
    · obtain ⟨b, rest, hb, hzero⟩ := ih (n / 10) (by omega)
      refine ⟨b, rest ++ [digitOctet (n % 10)], ?_, fun _ => hzero (by omega)⟩
      rw [decimal_of_le (by omega), hb, List.cons_append]

theorem digitsValue_concat (ds : List UInt8) (d : UInt8) :
    digitsValue (ds ++ [d]) = (digitsValue ds).bind fun n =>
      if 0x30 ≤ d.toNat ∧ d.toNat ≤ 0x39 then some (n * 10 + (d.toNat - 0x30)) else none := by
  unfold digitsValue
  rw [List.foldl_append]
  rfl

/-- Digits mean the number that they were written for. -/
theorem digitsValue_decimal (n : Nat) : digitsValue (decimal n) = some n := by
  induction n using Nat.strongRecOn with
  | ind n ih =>
    by_cases hn : n < 10
    · obtain ⟨hlow, hhigh, hvalue⟩ := toNat_digitOctet n hn
      rw [decimal_of_lt hn, ← List.nil_append [digitOctet n], digitsValue_concat]
      show (if _ then _ else none) = _
      rw [if_pos ⟨hlow, hhigh⟩, hvalue, Nat.zero_mul, Nat.zero_add]
    · obtain ⟨hlow, hhigh, hvalue⟩ := toNat_digitOctet (n % 10) (Nat.mod_lt n (by decide))
      rw [decimal_of_le (by omega), digitsValue_concat, ih (n / 10) (by omega), Option.bind_some,
        if_pos ⟨hlow, hhigh⟩, hvalue]
      congr 1
      omega

/-! ## Where a number ends -/

/-- What follows does not go on with a number. -/
def EndsNumber (rest : List UInt8) : Prop :=
  ∀ b ∈ rest.head?, isDigit b = false ∧ b ≠ 0x2e ∧ isExponentMark b = false

theorem endsNumber_cons {b : UInt8} (h : isDigit b = false ∧ b ≠ 0x2e ∧ isExponentMark b = false)
    (rest : List UInt8) : EndsNumber (b :: rest) := by
  rintro c hc
  obtain rfl : b = c := by simpa using hc
  exact h

/-- A number that is written so is read up to its end. -/
structure IsNumeral (w : List UInt8) : Prop where
  begins : ∃ b tail, w = b :: tail ∧ (b = 0x2d ∨ isDigit b = true)
  ends : ∀ rest, EndsNumber rest → number? (w ++ rest) = some (w, rest)

section Ends

variable {rest : List UInt8} (h : EndsNumber rest)

include h

theorem digits_append {ds : List UInt8} (hds : ∀ b ∈ ds, isDigit b = true) :
    digits (ds ++ rest) = (ds, rest) := by
  have hrest : rest.takeWhile isDigit = [] ∧ rest.dropWhile isDigit = rest := by
    cases rest with
    | nil => exact ⟨rfl, rfl⟩
    | cons b rest =>
      have hb := (h b rfl).1
      exact ⟨List.takeWhile_cons_of_neg (by simp [hb]), List.dropWhile_cons_of_neg (by simp [hb])⟩
  unfold digits
  rw [List.takeWhile_append_of_pos hds, List.dropWhile_append_of_pos hds, hrest.1, hrest.2,
    List.append_nil]

theorem places?_of_ends : places? rest = some ([], rest) := by
  cases rest with
  | nil => rfl
  | cons b rest =>
    have hb := (h b rfl).2.1
    unfold places?
    split
    · rename_i heq
      exact absurd (List.cons.inj heq).1 hb
    · rfl

theorem exponent?_of_ends : exponent? rest = some ([], rest) := by
  cases rest with
  | nil => rfl
  | cons b rest =>
    have hb := (h b rfl).2.2
    unfold exponent?
    exact if_neg (by simp [hb])

theorem whole?_decimal (n : Nat) : whole? (decimal n ++ rest) = some (decimal n, rest) := by
  by_cases hn : n = 0
  · subst hn
    show whole? (0x30 :: rest) = some ([0x30], rest)
    unfold whole?
    have hhead : (rest.head?.map isDigit).getD false = false := by
      cases hrest : rest.head? with
      | none => rfl
      | some b => exact (h b hrest).1
    simp [hhead]
  · obtain ⟨b, ds, hdecimal, hzero⟩ := decimal_eq_cons n
    have hdigits := digits_append h fun b (hb : b ∈ decimal n) => isDigit_of_mem_decimal hb
    unfold whole?
    split
    · rename_i heq
      rw [hdecimal] at heq
      exact absurd (List.cons.inj heq).1 (hzero hn)
    · unfold digits1?
      rw [hdigits, hdecimal]

theorem unsigned?_decimal (n : Nat) : unsigned? (decimal n ++ rest) = some (decimal n, rest) := by
  unfold unsigned?
  rw [whole?_decimal h]
  simp [places?_of_ends h, exponent?_of_ends h]

end Ends

/-! ## Integers -/

/-- An integer is written by its digits, with a minus sign if it is negative. -/
theorem octets_int (i : Int) :
    octets (toString i) = if i < 0 then 0x2d :: decimal i.natAbs else decimal i.natAbs := by
  rw [Int.toString_eq_repr, Int.repr_eq_if]
  by_cases hi : i < 0
  · have hnat : (-i).toNat = i.natAbs := by omega
    rw [if_neg (by omega), if_pos hi, octets_append, hnat]
    rfl
  · have hnat : i.toNat = i.natAbs := by omega
    rw [if_pos (by omega), if_neg hi, hnat]
    rfl

/-- Digits do not begin with a minus sign. -/
theorem decimal_ne_minus (n : Nat) (rest tail : List UInt8) : decimal n ++ rest ≠ 0x2d :: tail := by
  obtain ⟨b, ds, hdecimal, -⟩ := decimal_eq_cons n
  intro heq
  have hb : isDigit b = true := isDigit_of_mem_decimal (n := n) (hdecimal ▸ List.mem_cons_self)
  rw [hdecimal] at heq
  rw [(List.cons.inj heq).1] at hb
  exact absurd hb (by decide)

/-- **An integer ends where its digits end.** -/
theorem isNumeral_int (i : Int) : IsNumeral (octets (toString i)) := by
  obtain ⟨b, ds, hdecimal, -⟩ := decimal_eq_cons i.natAbs
  rw [octets_int]
  split
  · refine ⟨⟨_, _, rfl, .inl rfl⟩, fun rest hrest => ?_⟩
    show (unsigned? (decimal i.natAbs ++ rest)).map _ = _
    rw [unsigned?_decimal hrest]
    rfl
  · refine ⟨⟨b, ds, hdecimal, .inr ?_⟩, fun rest hrest => ?_⟩
    · exact isDigit_of_mem_decimal (n := i.natAbs) (hdecimal ▸ List.mem_cons_self)
    · unfold number?
      split
      · rename_i heq
        exact absurd heq (decimal_ne_minus _ _ _)
      · exact unsigned?_decimal hrest _

/-- The integer fits 64 bits in two's complement. -/
def FitsInt64 (i : Int) : Prop :=
  -Int.ofNat (Nat.pow 2 63) ≤ i ∧ i < Int.ofNat (Nat.pow 2 63)

instance (i : Int) : Decidable (FitsInt64 i) :=
  inferInstanceAs (Decidable (_ ∧ _))

/-- **An integer means itself**, if it fits. -/
theorem int64?_int {i : Int} (h : FitsInt64 i) : int64? (octets (toString i)) = some i := by
  obtain ⟨hlow, hhigh⟩ : -((Nat.pow 2 63 : Nat) : Int) ≤ i ∧ i < ((Nat.pow 2 63 : Nat) : Int) := h
  rw [octets_int]
  split
  · show (digitsValue (decimal i.natAbs)).bind _ = _
    rw [digitsValue_decimal, Option.bind_some, if_neg (by omega)]
    refine congrArg some ?_
    show -(i.natAbs : Int) = i
    omega
  · unfold int64?
    split
    · rename_i heq
      exact absurd (by rw [List.append_nil]; exact heq) (decimal_ne_minus i.natAbs [] _)
    · rw [digitsValue_decimal]
      show (if Nat.pow 2 63 ≤ i.natAbs then none else some (Int.ofNat i.natAbs)) = some i
      rw [if_neg (by omega)]
      refine congrArg some ?_
      show (i.natAbs : Int) = i
      omega

end BorderSync.Json
