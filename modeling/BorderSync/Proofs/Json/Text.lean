/-
# BorderSync.Proofs.Json.Text -- strings are read as they were written

Inside a string a character stands for itself, or is escaped: by a backslash and a letter, or by the
four digits of its number. Whoever looks for the end of the string passes over both, and whoever asks
for the meaning gets the character back.
-/
import BorderSync.Json.Reader
import BorderSync.Proofs.Text.Utf8

namespace BorderSync.Json

open Text (Utf8.encode Utf8.decode?)

/-! ## Octets that stand for themselves -/

/-- An octet that stands for itself inside a string. -/
def IsPlain (b : UInt8) : Prop :=
  b ≠ 0x5c ∧ b ≠ 0x22 ∧ 0x20 ≤ b.toNat

theorem unescape_plain {b : UInt8} (hb : IsPlain b) (rest : List UInt8) :
    unescape (b :: rest) = (unescape rest).map (b :: ·) := by
  have hslash := hb.1
  rw [unescape]
  all_goals simp_all

theorem inside?_plain {b : UInt8} (hb : IsPlain b) (rest : List UInt8) :
    inside? (b :: rest) = (inside? rest).map fun p => (b :: p.1, p.2) := by
  obtain ⟨hslash, hquote, hlow⟩ := hb
  have hblank : ¬ b < 0x20 := by
    rw [UInt8.lt_iff_toNat_lt]
    exact Nat.not_lt.mpr hlow
  rw [inside?]
  · rw [if_neg (by simp [hblank, hslash])]
  all_goals simp_all

theorem unescape_plains {bs : List UInt8} (h : ∀ b ∈ bs, IsPlain b) (rest : List UInt8) :
    unescape (bs ++ rest) = (unescape rest).map (bs ++ ·) := by
  induction bs with
  | nil => simp
  | cons b bs ih =>
    rw [List.cons_append, unescape_plain (h b List.mem_cons_self),
      ih fun a ha => h a (List.mem_cons_of_mem b ha), Option.map_map]
    rfl

theorem inside?_plains {bs : List UInt8} (h : ∀ b ∈ bs, IsPlain b) (rest : List UInt8) :
    inside? (bs ++ rest) = (inside? rest).map fun p => (bs ++ p.1, p.2) := by
  induction bs with
  | nil => simp
  | cons b bs ih =>
    rw [List.cons_append, inside?_plain (h b List.mem_cons_self),
      ih fun a ha => h a (List.mem_cons_of_mem b ha), Option.map_map]
    rfl

/-- The octets of a character that is not escaped stand for themselves. -/
theorem plain_of_mem_encodeChar {c : Char} (hquote : c ≠ '"') (hslash : c ≠ '\\')
    (hlow : 0x20 ≤ c.toNat) : ∀ b ∈ String.utf8EncodeChar c, IsPlain b := by
  have hoctet : ∀ n, n < 0x100 → 0x20 ≤ n → n ≠ 0x22 → n ≠ 0x5c → IsPlain (UInt8.ofNat n) := by
    intro n hn hlow hquote hslash
    have hnat := Text.Utf8.toNat_octet hn
    refine ⟨fun h => hslash ?_, fun h => hquote ?_, by omega⟩ <;>
      exact hnat ▸ congrArg UInt8.toNat h
  have hrange := Text.Utf8.char_range c
  have hq : c.toNat ≠ 0x22 := fun h => hquote (Char.toNat_inj.mp h)
  have hs : c.toNat ≠ 0x5c := fun h => hslash (Char.toNat_inj.mp h)
  intro b hb
  unfold String.utf8EncodeChar at hb
  rw [show c.val.toNat = c.toNat from rfl] at hb
  generalize c.toNat = v at *
  simp only at hb
  split at hb
  · rw [List.mem_singleton.mp hb]
    exact hoctet v (by omega) hlow hq hs
  · -- every octet of a longer character is above 127
    split at hb
    · simp only [List.mem_cons, List.not_mem_nil, or_false] at hb
      rcases hb with rfl | rfl <;> exact hoctet _ (by omega) (by omega) (by omega) (by omega)
    · split at hb
      · simp only [List.mem_cons, List.not_mem_nil, or_false] at hb
        rcases hb with rfl | rfl | rfl <;>
          exact hoctet _ (by omega) (by omega) (by omega) (by omega)
      · simp only [List.mem_cons, List.not_mem_nil, or_false] at hb
        rcases hb with rfl | rfl | rfl | rfl <;>
          exact hoctet _ (by omega) (by omega) (by omega) (by omega)

/-! ## Escaped characters -/

/-- Four digits stand for the character with their number. -/
theorem unescape_digits {a b c d : UInt8} {n : Nat} (h : hex4? a b c d = some n) (hn : n < 0xd800)
    (rest : List UInt8) : unescape (0x5c :: 0x75 :: a :: b :: c :: d :: rest)
      = (unescape rest).map (String.utf8EncodeChar (Char.ofNat n) ++ ·) := by
  -- what follows may look like the second half of a surrogate pair; that makes no difference here
  by_cases hpair : ∃ e f g i tail, rest = 0x5c :: 0x75 :: e :: f :: g :: i :: tail
  · obtain ⟨e, f, g, i, tail, rfl⟩ := hpair
    rw [unescape, h]
    simp only [Option.bind_eq_bind, Option.bind_some]
    rw [if_neg (by omega), if_neg (by omega)]
  · rw [unescape, h]
    · simp only [Option.bind_eq_bind, Option.bind_some]
      rw [if_neg (by omega)]
    · intro e f g i tail htail
      exact hpair ⟨e, f, g, i, tail, htail⟩

/-- The last two of the four digits of a small number. -/
def lowDigits (n : Nat) : List UInt8 :=
  [UInt8.ofNat (Nat.digitChar (n / 16)).toNat, UInt8.ofNat (Nat.digitChar (n % 16)).toNat]

theorem encode_digits : ∀ n < 0x20,
    Utf8.encode (['\\', 'u'] ++ hex4 n) = [0x5c, 0x75, 0x30, 0x30] ++ lowDigits n ∧
      hex4? 0x30 0x30 (UInt8.ofNat (Nat.digitChar (n / 16)).toNat)
        (UInt8.ofNat (Nat.digitChar (n % 16)).toNat) = some n := by
  decide

/-- **How a character is escaped**: by a letter of its own, by the digits of its number, or not at
all. -/
theorem escapeChar_cases (c : Char) :
    c ∈ ['"', '\\', '\x08', '\x09', '\x0a', '\x0c', '\x0d'] ∨
      (c.toNat < 0x20 ∧
        Utf8.encode (escapeChar c) = [0x5c, 0x75, 0x30, 0x30] ++ lowDigits c.toNat) ∨
      (Utf8.encode (escapeChar c) = String.utf8EncodeChar c ∧
        ∀ b ∈ String.utf8EncodeChar c, IsPlain b) := by
  by_cases hshort : c ∈ ['"', '\\', '\x08', '\x09', '\x0a', '\x0c', '\x0d']
  · exact .inl hshort
  · refine .inr ?_
    simp only [List.mem_cons, List.not_mem_nil, or_false, not_or] at hshort
    obtain ⟨hquote, hslash, hb, ht, hn, hf, hr⟩ := hshort
    unfold escapeChar
    rw [if_neg hquote, if_neg hslash, if_neg hb, if_neg ht, if_neg hn, if_neg hf, if_neg hr]
    by_cases hlow : c.toNat < 0x20
    · rw [if_pos hlow]
      exact .inl ⟨hlow, (encode_digits c.toNat hlow).1⟩
    · rw [if_neg hlow, show Utf8.encode [c] = String.utf8EncodeChar c from List.append_nil _]
      exact .inr ⟨rfl, plain_of_mem_encodeChar hquote hslash (by omega)⟩

/-- **One character is read back.** -/
theorem unescape_escapeChar (c : Char) (rest : List UInt8) :
    unescape (Utf8.encode (escapeChar c) ++ rest)
      = (unescape rest).map (String.utf8EncodeChar c ++ ·) := by
  rcases escapeChar_cases c with hshort | ⟨hlow, hencode⟩ | ⟨hencode, hplain⟩
  · simp only [List.mem_cons, List.not_mem_nil, or_false] at hshort
    rcases hshort with rfl | rfl | rfl | rfl | rfl | rfl | rfl <;> exact unescape.eq_def _
  · have hdigits := (encode_digits c.toNat hlow).2
    rw [hencode, show [0x5c, 0x75, 0x30, 0x30] ++ lowDigits c.toNat ++ rest
        = 0x5c :: 0x75 :: 0x30 :: 0x30 :: UInt8.ofNat (Nat.digitChar (c.toNat / 16)).toNat ::
          UInt8.ofNat (Nat.digitChar (c.toNat % 16)).toNat :: rest from rfl,
      unescape_digits hdigits (by omega), Char.ofNat_toNat]
  · rw [hencode]
    exact unescape_plains hplain rest

/-- The end of a string is not inside a character. -/
theorem inside?_escapeChar (c : Char) (rest : List UInt8) :
    inside? (Utf8.encode (escapeChar c) ++ rest)
      = (inside? rest).map fun p => (Utf8.encode (escapeChar c) ++ p.1, p.2) := by
  rcases escapeChar_cases c with hshort | ⟨hlow, hencode⟩ | ⟨hencode, hplain⟩
  · simp only [List.mem_cons, List.not_mem_nil, or_false] at hshort
    rcases hshort with rfl | rfl | rfl | rfl | rfl | rfl | rfl <;> exact inside?.eq_def _
  · have hdigits := (encode_digits c.toNat hlow).2
    rw [hencode, show [0x5c, 0x75, 0x30, 0x30] ++ lowDigits c.toNat ++ rest
        = 0x5c :: 0x75 :: 0x30 :: 0x30 :: UInt8.ofNat (Nat.digitChar (c.toNat / 16)).toNat ::
          UInt8.ofNat (Nat.digitChar (c.toNat % 16)).toNat :: rest from rfl, inside?, hdigits]
    rfl
  · rw [hencode]
    exact inside?_plains hplain rest

/-! ## Strings -/

/-- The octets of a text, character by character. -/
theorem encode_flatMap (f : Char → List Char) (c : Char) (cs : List Char) :
    Utf8.encode ((c :: cs).flatMap f) = Utf8.encode (f c) ++ Utf8.encode (cs.flatMap f) := by
  unfold Utf8.encode
  rw [List.flatMap_cons, List.flatMap_append]

/-- What was escaped stands for the octets of the text. -/
theorem unescape_escape (s : String) : unescape (escape s) = some (octets s) := by
  unfold escape octets
  induction s.toList with
  | nil => rfl
  | cons c cs ih =>
    rw [encode_flatMap, unescape_escapeChar, ih]
    rfl

/-- **A text is what its string means.** -/
theorem meaning?_escape (s : String) : meaning? (escape s) = some s := by
  unfold meaning?
  rw [unescape_escape, Option.bind_some, octets, Text.Utf8.decode?_encode, Option.map_some,
    String.ofList_toList]

/-- **A string ends where it was ended.** -/
theorem inside?_escape (s : String) (rest : List UInt8) :
    inside? (escape s ++ 0x22 :: rest) = some (escape s, rest) := by
  unfold escape
  induction s.toList with
  | nil => exact inside?.eq_def _
  | cons c cs ih =>
    rw [encode_flatMap, List.append_assoc, inside?_escapeChar, ih]
    rfl

end BorderSync.Json
