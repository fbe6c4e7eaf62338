/-
# BorderSync.Proofs.Text.Percent -- what was escaped is read back

Whatever the class of escaped characters is, an escaped text is read back as long as the percent sign itself
is in the class. An octet that was escaped stands for itself, and what was left alone is no percent sign.
-/
import BorderSync.Proofs.Text.Utf8
import BorderSync.Text.Percent

namespace BorderSync.Text.Percent

variable {escaped : Char → Bool}

/-! ## Octets -/

/-- A hexadecimal digit is read back. -/
theorem hexValue?_hexDigit : ∀ n < 16, hexValue? (hexDigit n) = some n := by
  decide

/-- No hexadecimal digit is a slash. -/
theorem hexDigit_ne_slash : ∀ n < 16, hexDigit n ≠ '/' := by
  decide

/-- Both digits of an octet are below 16. -/
theorem digits_lt (b : UInt8) : b.toNat / 16 < 16 ∧ b.toNat % 16 < 16 := by
  have hb : b.toNat < 256 := b.toNat_lt
  constructor <;> omega

/-- **An escaped octet is read back.** -/
theorem decode_escapeOctet (b : UInt8) (rest : List Char) :
    decode (escapeOctet b ++ rest) = b :: decode rest := by
  obtain ⟨hhigh, hlow⟩ := digits_lt b
  have hwhole : b.toNat / 16 * 16 + b.toNat % 16 = b.toNat := by omega
  rw [escapeOctet, List.cons_append, List.cons_append, List.cons_append, List.nil_append, decode,
    hexValue?_hexDigit _ hhigh, hexValue?_hexDigit _ hlow]
  simp only [hwhole, UInt8.ofNat_toNat]

theorem decode_escapeOctets (bs : List UInt8) (rest : List Char) :
    decode (bs.flatMap escapeOctet ++ rest) = bs ++ decode rest := by
  induction bs with
  | nil => rfl
  | cons b bs ih => rw [List.flatMap_cons, List.append_assoc, decode_escapeOctet, ih, List.cons_append]

/-! ## Characters and texts -/

/-- A character that is no percent sign stands for itself. -/
theorem decode_cons_of_ne {c : Char} (h : c ≠ '%') (rest : List Char) :
    decode (c :: rest) = String.utf8EncodeChar c ++ decode rest := by
  rw [decode]
  intro a b rest' hc
  exact absurd hc h

/-- **One character is read back.** -/
theorem decode_encodeChar (hpercent : escaped '%' = true) (c : Char) (rest : List Char) :
    decode (encodeChar escaped c ++ rest) = String.utf8EncodeChar c ++ decode rest := by
  unfold encodeChar
  split
  · exact decode_escapeOctets _ rest
  · rename_i hc
    have hne : c ≠ '%' := by
      rintro rfl
      exact hc (by rw [hpercent, Bool.or_true])
    exact decode_cons_of_ne hne rest

/-- **What was escaped is read back**, octet by octet. -/
theorem decode_encode (hpercent : escaped '%' = true) (s : List Char) :
    decode (encode escaped s) = Utf8.encode s := by
  unfold encode Utf8.encode
  induction s with
  | nil => rfl
  | cons c s ih => rw [List.flatMap_cons, decode_encodeChar hpercent, ih, List.flatMap_cons]

/-- No slash is left if slashes are escaped. -/
theorem slash_notMem_encode (hslash : escaped '/' = true) (s : List Char) : '/' ∉ encode escaped s := by
  intro hmem
  obtain ⟨c, -, hc⟩ := List.mem_flatMap.mp hmem
  unfold encodeChar at hc
  split at hc
  · obtain ⟨b, -, hb⟩ := List.mem_flatMap.mp hc
    obtain ⟨hhigh, hlow⟩ := digits_lt b
    simp only [escapeOctet, List.mem_cons, List.not_mem_nil, or_false] at hb
    rcases hb with hb | hb | hb
    · exact absurd hb (by decide)
    · exact hexDigit_ne_slash _ hhigh hb.symm
    · exact hexDigit_ne_slash _ hlow hb.symm
  · rename_i hkept
    obtain rfl := List.mem_singleton.mp hc
    exact hkept (by rw [hslash, Bool.or_true])

end BorderSync.Text.Percent
