/-
# BorderSync.Proofs.Text.Blank -- what trimming leaves of a text, and lower case

Trimming takes white space away at both ends and nothing else, and as much of it as there is. There is only
one text that is left when that is done.
-/
import BorderSync.Text.Blank
import Mathlib.Data.List.DropRight

namespace BorderSync.Text

/-- **Trimmed**: `core` is what is left of a text without the white space around it. -/
structure Trimmed (s core : List Char) : Prop where
  around : ∃ lead tail, s = lead ++ core ++ tail ∧ (∀ c ∈ lead, isBlank c = true) ∧
    ∀ c ∈ tail, isBlank c = true
  first : ∀ c, core.head? = some c → isBlank c = false
  last : ∀ c, core.getLast? = some c → isBlank c = false

/-- Trimming takes white space away and nothing else, and does not stop before it is done. -/
theorem trimmed_trimChars (s : List Char) : Trimmed s (trimChars s) := by
  have hright : trimChars s ++ (s.dropWhile isBlank).rtakeWhile isBlank = s.dropWhile isBlank :=
    List.rdropWhile_append_rtakeWhile
  refine ⟨⟨s.takeWhile isBlank, (s.dropWhile isBlank).rtakeWhile isBlank, ?_, ?_, ?_⟩, ?_, ?_⟩
  · rw [List.append_assoc, hright, List.takeWhile_append_dropWhile]
  · intro c hc
    exact List.mem_takeWhile_imp hc
  · intro c hc
    exact List.mem_rtakeWhile_imp hc
  · intro c hc
    -- the first character is also the first one after the white space in front
    have hhead : (s.dropWhile isBlank).head? = some c := by
      rw [← hright, List.head?_append, hc]
      rfl
    have hstop := List.head?_dropWhile_not isBlank s
    rw [hhead] at hstop
    exact hstop
  · intro c hc
    have hne : trimChars s ≠ [] := by
      intro hnil
      rw [hnil] at hc
      exact absurd hc (by simp)
    rw [List.getLast?_eq_some_getLast hne, Option.some.injEq] at hc
    rw [← hc]
    exact Bool.eq_false_iff.mpr (List.rdropWhile_last_not isBlank _ hne)

/-- **Only one text is left** by trimming. -/
theorem Trimmed.eq_trimChars {s core : List Char} (h : Trimmed s core) : core = trimChars s := by
  obtain ⟨lead, tail, rfl, hlead, htail⟩ := h.around
  have hcut : (lead ++ core ++ tail).dropWhile isBlank = (core ++ tail).dropWhile isBlank := by
    rw [List.append_assoc, List.dropWhile_append_of_pos hlead]
  have hend : dropEndWhile isBlank (core ++ tail) = dropEndWhile isBlank core := by
    unfold dropEndWhile
    rw [List.reverse_append, List.dropWhile_append_of_pos fun c hc => htail c (List.mem_reverse.mp hc)]
  unfold trimChars
  rw [hcut]
  cases core with
  | nil =>
    rw [List.nil_append, List.dropWhile_eq_nil_iff.mpr htail]
    rfl
  | cons c core =>
    have hc : ¬ isBlank c = true := Bool.eq_false_iff.mp (h.first c rfl)
    rw [List.cons_append, List.dropWhile_cons_of_neg hc, ← List.cons_append, hend]
    refine (List.rdropWhile_eq_self_iff.mpr ?_).symm
    intro hne
    exact Bool.eq_false_iff.mp (h.last _ (List.getLast?_eq_some_getLast hne))

/-- The lower case of ASCII letters; no other character has one. -/
theorem lowerAscii_eq_toLower (c : Char) : lowerAscii c = c.toLower := by
  unfold lowerAscii
  by_cases h : 'A' ≤ c ∧ c ≤ 'Z'
  · have hhigh : c.toNat ≤ 'Z'.toNat := Char.le_def.mp h.2
    have hlower : c.toNat + 32 = c.toLower.toNat := by
      unfold Char.toLower
      rw [dif_pos (show c.val ≥ 'A'.val ∧ c.val ≤ 'Z'.val from h)]
      change c.toNat + 32 = (c.toNat + 32) % 4294967296
      rw [Nat.mod_eq_of_lt]
      exact Nat.lt_of_le_of_lt (Nat.add_le_add_right hhigh 32) (by decide)
    rw [if_pos h, hlower, Char.ofNat_toNat]
  · unfold Char.toLower
    rw [if_neg h, dif_neg (show ¬ (c.val ≥ 'A'.val ∧ c.val ≤ 'Z'.val) from h)]

end BorderSync.Text
