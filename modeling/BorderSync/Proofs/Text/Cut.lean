/-
# BorderSync.Proofs.Text.Cut -- where a text is cut at a separator

A text that joins two parts with a separator can be cut again if one knows at which of the separators: at the
first one if there is none in the part before it, and at the last one if there is none in the part after it.
The other part may hold as many as it likes. A text that is cut at every separator needs no such care: its
pieces hold none, and joined again they are the text.
-/
import BorderSync.Text.Blank
import Mathlib.Data.List.Basic

namespace BorderSync.Text

variable {α : Type} {sep : α} {a b c d : List α}

/-- **The first separator** tells what stands before it and what stands after it. -/
theorem cut_first (ha : sep ∉ a) (hc : sep ∉ c) (h : a ++ sep :: b = c ++ sep :: d) : a = c ∧ b = d := by
  induction a generalizing c with
  | nil =>
    cases c with
    | nil => exact ⟨rfl, (List.cons.inj h).2⟩
    | cons x c => exact absurd ((List.cons.inj h).1 ▸ List.mem_cons_self) hc
  | cons x a ih =>
    cases c with
    | nil => exact absurd ((List.cons.inj h).1 ▸ List.mem_cons_self) ha
    | cons y c =>
      obtain ⟨rfl, htail⟩ := List.cons.inj h
      obtain ⟨rfl, rfl⟩ := ih (List.not_mem_of_not_mem_cons ha) (List.not_mem_of_not_mem_cons hc) htail
      exact ⟨rfl, rfl⟩

/-- **The last separator** tells what stands before it and what stands after it. -/
theorem cut_last (hb : sep ∉ b) (hd : sep ∉ d) (h : a ++ sep :: b = c ++ sep :: d) : a = c ∧ b = d := by
  have hreverse : b.reverse ++ sep :: a.reverse = d.reverse ++ sep :: c.reverse := by
    simpa using congrArg List.reverse h
  obtain ⟨hright, hleft⟩ := cut_first (by simpa using hb) (by simpa using hd) hreverse
  exact ⟨List.reverse_injective hleft, List.reverse_injective hright⟩

/-! ## Every separator -/

/-- Cutting at every separator is what the library calls splitting. -/
theorem splitOnChar_eq_splitOn (sep : Char) (s : List Char) : splitOnChar sep s = s.splitOn sep := by
  induction s with
  | nil => rfl
  | cons c s ih =>
    rw [splitOnChar, List.splitOn_cons_eq_if_modifyHead, ih]
    by_cases hc : c = sep
    · rw [if_pos hc, if_pos (beq_iff_eq.mpr hc)]
    · rw [if_neg hc, if_neg (mt beq_iff_eq.mp hc)]
      cases hsplit : s.splitOn sep with
      | nil => exact absurd hsplit (List.splitOn_ne_nil sep s)
      | cons piece pieces => rfl

/-- No piece holds a separator. -/
theorem not_mem_of_mem_splitOnChar {sep : Char} {s piece : List Char} (h : piece ∈ splitOnChar sep s) :
    sep ∉ piece := by
  induction s generalizing piece with
  | nil => simp_all [splitOnChar]
  | cons c s ih =>
    rw [splitOnChar] at h
    by_cases hc : c = sep
    · rw [if_pos hc, List.mem_cons] at h
      rcases h with rfl | h
      · exact List.not_mem_nil
      · exact ih h
    · rw [if_neg hc] at h
      cases hsplit : splitOnChar sep s with
      | nil =>
        rw [hsplit, List.mem_singleton] at h
        subst h
        simpa using Ne.symm hc
      | cons first pieces =>
        rw [hsplit] at h ih
        rcases List.mem_cons.mp h with rfl | h
        · exact List.not_mem_cons_of_ne_of_not_mem (Ne.symm hc) (ih List.mem_cons_self)
        · exact ih (List.mem_cons_of_mem _ h)

end BorderSync.Text
