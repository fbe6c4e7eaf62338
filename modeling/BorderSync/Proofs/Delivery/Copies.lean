/-
# BorderSync.Proofs.Delivery.Copies -- the copies of updates for all hosts

Updates are copied host by host, so that a copy stands in the list where its two indices say: there is one copy
for every pair. The ids keep the copies of one call apart, although hosts and updates may come more than once.
-/
import BorderSync.Delivery.FanOut
import BorderSync.Proofs.Event.Id

namespace BorderSync.Delivery

open Event

/-! ## Lists in lists -/

variable {α β γ : Type}

/-- An item with its index. -/
theorem indexed_getElem? (xs : List α) (i : Nat) : (indexed xs)[i]? = xs[i]?.map fun x => (i, x) := by
  unfold indexed
  rw [List.getElem?_map, List.getElem?_zipIdx, Option.map_map, Nat.zero_add]
  rfl

theorem length_indexed (xs : List α) : (indexed xs).length = xs.length := by
  unfold indexed
  rw [List.length_map, List.length_zipIdx]

/-- Rows of equal length, one after the other. -/
theorem length_rows (f : α → β → γ) (xs : List α) (ys : List β) :
    (xs.flatMap fun x => ys.map (f x)).length = xs.length * ys.length := by
  induction xs with
  | nil => simp
  | cons x xs ih =>
    rw [List.flatMap_cons, List.length_append, List.length_map, ih, List.length_cons, Nat.succ_mul, Nat.add_comm]

/-- The entry of a row and a column. -/
theorem rows_getElem? (f : α → β → γ) {xs : List α} {ys : List β} {i j : Nat} {x : α} {y : β}
    (hx : xs[i]? = some x) (hy : ys[j]? = some y) :
    (xs.flatMap fun x => ys.map (f x))[i * ys.length + j]? = some (f x y) := by
  have hj : j < ys.length := (List.getElem?_eq_some_iff.mp hy).1
  induction xs generalizing i with
  | nil => exact absurd hx (by simp)
  | cons x' xs ih =>
    rw [List.flatMap_cons]
    cases i with
    | zero =>
      obtain rfl : x' = x := Option.some.inj hx
      rw [Nat.zero_mul, Nat.zero_add, List.getElem?_append_left (by rw [List.length_map]; exact hj),
        List.getElem?_map, hy, Option.map_some]
    | succ i =>
      have hrow : (i + 1) * ys.length + j - (ys.map (f x')).length = i * ys.length + j := by
        rw [List.length_map, Nat.succ_mul]
        omega
      rw [List.getElem?_append_right (by rw [List.length_map, Nat.succ_mul]; omega), hrow]
      exact ih hx

/-! ## Copies -/

variable {hosts : List String} {updates : List Update} (token : Nat → Nat → String)

/-- There is one copy for each pair. -/
theorem length_copies : (copies hosts updates token).length = hosts.length * updates.length := by
  unfold copies
  rw [length_rows, length_indexed, length_indexed]

/-- **The copy of a pair** stands where its indices say. -/
theorem copies_getElem? {i j : Nat} {h : String} {v : Update} (hh : hosts[i]? = some h)
    (hv : updates[j]? = some v) :
    (copies hosts updates token)[i * updates.length + j]? = some (copyFor token (i, h) (j, v)) := by
  have hrow : (indexed hosts)[i]? = some (i, h) := by rw [indexed_getElem?, hh, Option.map_some]
  have hcolumn : (indexed updates)[j]? = some (j, v) := by rw [indexed_getElem?, hv, Option.map_some]
  have hentry := rows_getElem? (copyFor token) hrow hcolumn
  rwa [length_indexed] at hentry

theorem copyFor_mem {i j : Nat} {h : String} {v : Update} (hh : hosts[i]? = some h) (hv : updates[j]? = some v) :
    copyFor token (i, h) (j, v) ∈ copies hosts updates token :=
  List.mem_of_getElem? (copies_getElem? token hh hv)

variable {token}

/-- Every place of the list is that of a pair. -/
theorem pair_of_getElem? {k : Nat} {u : Update} (hu : (copies hosts updates token)[k]? = some u) :
    ∃ i j h v, hosts[i]? = some h ∧ updates[j]? = some v ∧ k = i * updates.length + j ∧
      u = copyFor token (i, h) (j, v) := by
  have hk : k < hosts.length * updates.length := by
    rw [← length_copies token]
    exact (List.getElem?_eq_some_iff.mp hu).1
  have hcolumns : 0 < updates.length := Nat.pos_of_mul_pos_left (Nat.zero_lt_of_lt hk)
  have hi : k / updates.length < hosts.length := Nat.div_lt_of_lt_mul (by rwa [Nat.mul_comm] at hk)
  have hj : k % updates.length < updates.length := Nat.mod_lt k hcolumns
  have hplace : k = k / updates.length * updates.length + k % updates.length := (Nat.div_add_mod' k _).symm
  have hh := List.getElem?_eq_getElem hi
  have hv := List.getElem?_eq_getElem hj
  refine ⟨_, _, _, _, hh, hv, hplace, ?_⟩
  have hcopy := copies_getElem? token hh hv
  rw [← hplace] at hcopy
  exact Option.some.inj (hu.symm.trans hcopy)

/-- **Copies at different places have different ids**, even if all tokens are the same. -/
theorem id_inj {k k' : Nat} {u u' : Update} (hu : (copies hosts updates token)[k]? = some u)
    (hu' : (copies hosts updates token)[k']? = some u') (hid : u.id = u'.id) : k = k' := by
  obtain ⟨i, j, h, v, -, -, rfl, rfl⟩ := pair_of_getElem? hu
  obtain ⟨i', j', h', v', -, -, rfl, rfl⟩ := pair_of_getElem? hu'
  obtain ⟨rfl, rfl⟩ := Id.text_indices hid
  rfl

theorem ids_apart : (copies hosts updates token).Pairwise fun u u' => u.id ≠ u'.id := by
  rw [List.pairwise_iff_getElem]
  intro k k' hk hk' hlt hid
  have hsame := id_inj (List.getElem?_eq_getElem hk) (List.getElem?_eq_getElem hk') hid
  omega

/-- A copy is addressed to the host of its pair. -/
theorem host_of_mem_copies {u : Update} (hu : u ∈ copies hosts updates token) : u.host ∈ hosts := by
  obtain ⟨k, hk⟩ := List.mem_iff_getElem?.mp hu
  obtain ⟨i, j, h, v, hh, -, -, rfl⟩ := pair_of_getElem? hk
  exact List.mem_of_getElem? hh

end BorderSync.Delivery
