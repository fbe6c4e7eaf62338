/-
# BorderSync.Table -- values by key

A table holds each key at most once, as a list of entries. Keys are compared with `==`, which may be
coarser than equality: what is stored under a key is found under every key that is the same in that
sense. The view of a table is `get?`; each operation is described by what it does to the view.
-/

namespace BorderSync

/-- **Table**: entries by key. -/
structure Table (κ ν : Type) where
  entries : List (κ × ν) := []
  deriving Repr

namespace Table

variable {κ ν : Type} [BEq κ]

/-- The table without entries. -/
def empty : Table κ ν := {}

/-- The value of a key. -/
def get? (t : Table κ ν) (k : κ) : Option ν :=
  t.entries.lookup k

/-- Whether a key has a value. -/
def contains (t : Table κ ν) (k : κ) : Bool :=
  (t.get? k).isSome

/-- Take out the entry of a key. -/
def erase (t : Table κ ν) (k : κ) : Table κ ν :=
  ⟨t.entries.filter fun e => !(e.1 == k)⟩

/-- Give a key a value, in place of the one that it had. -/
def insert (t : Table κ ν) (k : κ) (v : ν) : Table κ ν :=
  ⟨(k, v) :: (t.erase k).entries⟩

/-- The table of a list of entries; the last one of a key counts. -/
def ofList (entries : List (κ × ν)) : Table κ ν :=
  entries.foldl (fun t e => t.insert e.1 e.2) empty

/-- Number of entries. -/
def size (t : Table κ ν) : Nat :=
  t.entries.length

/-! ## The view -/

@[simp] theorem get?_empty (k : κ) : (empty : Table κ ν).get? k = none :=
  rfl

/-- Keys that are the same have the same value. -/
theorem get?_congr [EquivBEq κ] (t : Table κ ν) {j k : κ} (h : (j == k) = true) :
    t.get? j = t.get? k := by
  unfold get?
  induction t.entries with
  | nil => rfl
  | cons e rest ih =>
    rw [List.lookup_cons, List.lookup_cons, BEq.congr_left h, ih]

/-- Taking out a key leaves all others as they are. -/
theorem get?_erase [EquivBEq κ] (t : Table κ ν) (j k : κ) :
    (t.erase j).get? k = if k == j then none else t.get? k := by
  unfold get? erase
  induction t.entries with
  | nil => simp
  | cons e rest ih =>
    by_cases hj : e.1 == j
    · rw [List.filter_cons_of_neg (by simp [hj]), ih, List.lookup_cons, BEq.congr_right hj]
      by_cases hk : k == j <;> simp [hk]
    · rw [List.filter_cons_of_pos (by simp [hj]), List.lookup_cons, List.lookup_cons, ih]
      by_cases hk : k == e.1
      · have hne : (k == j) = false := by
          rw [BEq.congr_left hk]
          exact Bool.eq_false_iff.mpr hj
        simp [hk, hne]
      · simp [hk]

/-- A new value is found under its key, and under no other. -/
theorem get?_insert [EquivBEq κ] (t : Table κ ν) (j k : κ) (v : ν) :
    (t.insert j v).get? k = if k == j then some v else t.get? k := by
  change List.lookup k ((j, v) :: (t.erase j).entries) = _
  rw [List.lookup_cons]
  by_cases hk : k == j
  · simp [hk]
  · have h := get?_erase t j k
    simp only [hk, Bool.false_eq_true, if_false] at h ⊢
    exact h

end Table

end BorderSync
