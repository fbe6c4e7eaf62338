/-
# BorderSync.Proofs.Text.Utf8 -- what was written in UTF-8 is read back

A character is written in one to four octets. Reading them from the first one on, the scanner owes
nothing before the character, gathers its bits octet by octet, and owes nothing again after it.
-/
import BorderSync.Text.Utf8

namespace BorderSync.Text.Utf8

/-- The number of a character is outside the surrogates, and within range. -/
theorem char_range (c : Char) : c.toNat < 0xd800 ∨ 0xdfff < c.toNat ∧ c.toNat < 0x110000 := by
  have h := c.valid
  rw [UInt32.isValidChar, Nat.isValidChar] at h
  exact h

/-! ## Single octets -/

/-- The number of an octet. -/
theorem toNat_octet {n : Nat} (h : n < 0x100) : (UInt8.ofNat n).toNat = n :=
  UInt8.toNat_ofNat_of_lt' h

/-- The first octet of a character begins it when nothing is owed. -/
theorem scanFrom_start (b : UInt8) (rest : List UInt8) :
    scanFrom .nothing (b :: rest) = (start b).1 ++ scanFrom (start b).2 rest := by
  rw [scanFrom, if_pos (show Owed.nothing.count = 0 from rfl)]

/-- An octet below 128 is a character of its own. -/
theorem start_ascii {n : Nat} (h : n < 0x80) :
    start (UInt8.ofNat n) = ([some (Char.ofNat n)], .nothing) := by
  unfold start
  rw [toNat_octet (by omega)]
  exact if_pos h

/-- The first of two octets. -/
theorem start_two {n : Nat} (hlow : 2 ≤ n) (hhigh : n < 32) :
    start (UInt8.ofNat (n + 0xc0)) = ([], ⟨1, 0x80, 0xbf, n⟩) := by
  unfold start
  rw [toNat_octet (by omega)]
  simp only
  rw [if_neg (by omega), if_pos (by omega), Nat.add_sub_cancel]

/-- The first of three octets. -/
theorem start_three {n : Nat} (h : n < 16) : start (UInt8.ofNat (n + 0xe0)) =
    ([], ⟨2, if n = 0 then 0xa0 else 0x80, if n = 0xd then 0x9f else 0xbf, n⟩) := by
  unfold start
  rw [toNat_octet (by omega)]
  simp only
  rw [if_neg (by omega), if_neg (by omega)]
  by_cases hzero : n = 0
  · rw [hzero]
    rfl
  · rw [if_neg (by omega)]
    by_cases hsurrogate : n = 0xd
    · rw [hsurrogate]
      rfl
    · rw [if_neg (by omega), if_pos (by omega), if_neg hzero, if_neg hsurrogate,
        Nat.add_sub_cancel]

/-- The first of four octets. -/
theorem start_four {n : Nat} (h : n < 5) : start (UInt8.ofNat (n + 0xf0)) =
    ([], ⟨3, if n = 0 then 0x90 else 0x80, if n = 4 then 0x8f else 0xbf, n⟩) := by
  rcases (by omega : n = 0 ∨ n = 1 ∨ n = 2 ∨ n = 3 ∨ n = 4) with rfl | rfl | rfl | rfl | rfl <;> rfl

/-- The last octet that is owed ends the character. -/
theorem scanFrom_last {n low high bits : Nat} (hn : n < 0x40) (hlow : low ≤ n + 0x80)
    (hhigh : n + 0x80 ≤ high) (rest : List UInt8) :
    scanFrom ⟨1, low, high, bits⟩ (UInt8.ofNat (n + 0x80) :: rest)
      = some (Char.ofNat (bits * 64 + n)) :: scanFrom .nothing rest := by
  have hoctet : (UInt8.ofNat (n + 0x80)).toNat = n + 0x80 :=
    toNat_octet (by omega)
  rw [scanFrom, if_neg (by simp), if_pos (by rw [hoctet]; exact ⟨hlow, hhigh⟩)]
  simp only [if_pos, hoctet, Nat.add_sub_cancel]

/-- An octet that is owed adds six bits. -/
theorem scanFrom_more {m n low high bits : Nat} (hn : n < 0x40) (hlow : low ≤ n + 0x80)
    (hhigh : n + 0x80 ≤ high) (rest : List UInt8) :
    scanFrom ⟨m + 2, low, high, bits⟩ (UInt8.ofNat (n + 0x80) :: rest)
      = scanFrom ⟨m + 1, 0x80, 0xbf, bits * 64 + n⟩ rest := by
  have hoctet : (UInt8.ofNat (n + 0x80)).toNat = n + 0x80 :=
    toNat_octet (by omega)
  rw [scanFrom, if_neg (by simp), if_pos (by rw [hoctet]; exact ⟨hlow, hhigh⟩)]
  simp only [hoctet, Nat.add_sub_cancel]
  rw [if_neg (by omega)]
  rfl

/-! ## Characters and texts -/

/-- **One character is read back.** -/
theorem scanFrom_encodeChar (c : Char) (rest : List UInt8) :
    scanFrom .nothing (String.utf8EncodeChar c ++ rest) = some c :: scanFrom .nothing rest := by
  have hrange := char_range c
  have hchar : ∀ n, n = c.toNat → Char.ofNat n = c := by
    rintro n rfl
    exact Char.ofNat_toNat c
  unfold String.utf8EncodeChar
  rw [show c.val.toNat = c.toNat from rfl]
  generalize c.toNat = v at hrange hchar
  simp only
  -- one to four octets, by the size of the number
  split
  · rw [List.cons_append, scanFrom_start, start_ascii (by omega), hchar v rfl]
    rfl
  · split
    · rw [List.cons_append, scanFrom_start, start_two (by omega) (by omega)]
      rw [List.nil_append, List.cons_append, scanFrom_last (by omega) (by omega) (by omega),
        hchar _ (by omega)]
      rfl
    · split
      · rw [List.cons_append, scanFrom_start, start_three (by omega)]
        rw [List.nil_append, List.cons_append,
          scanFrom_more (by omega) (by split <;> omega) (by split <;> omega), List.cons_append,
          scanFrom_last (by omega) (by omega) (by omega), hchar _ (by omega)]
        rfl
      · rw [List.cons_append, scanFrom_start, start_four (by omega)]
        rw [List.nil_append, List.cons_append,
          scanFrom_more (by omega) (by split <;> omega) (by split <;> omega), List.cons_append,
          scanFrom_more (by omega) (by omega) (by omega), List.cons_append,
          scanFrom_last (by omega) (by omega) (by omega), hchar _ (by omega)]
        rfl

/-- What was written has no faults. -/
theorem scan_encode (cs : List Char) : scan (encode cs) = cs.map some := by
  unfold scan encode
  induction cs with
  | nil => rfl
  | cons c cs ih => rw [List.flatMap_cons, scanFrom_encodeChar, ih, List.map_cons]

/-- **What was written is read back.** -/
theorem decode?_encode (cs : List Char) : decode? (encode cs) = some cs := by
  unfold decode?
  rw [scan_encode]
  induction cs with
  | nil => rfl
  | cons c cs ih =>
    rw [List.map_cons, List.mapM_cons, ih]
    rfl

end BorderSync.Text.Utf8
