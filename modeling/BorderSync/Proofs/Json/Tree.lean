/-
# BorderSync.Proofs.Json.Tree -- trees are read as they were written

A tree is **well written** if every number in it is a numeral and every string and key ends where it is
ended. The octets of such a tree are read as this tree, whatever follows them; so a text that is nothing
but a well written tree is read as it.
-/
import BorderSync.Proofs.Json.Number
import BorderSync.Proofs.Json.Text

namespace BorderSync.Json

/-- The inside of a string ends at the first quote that is not part of it. -/
def IsInside (w : List UInt8) : Prop :=
  ∀ rest, inside? (w ++ 0x22 :: rest) = some (w, rest)

theorem isInside_escape (s : String) : IsInside (escape s) :=
  inside?_escape s

namespace Value

/-- **Well written**: numbers are numerals, and strings and keys end where they are ended. -/
inductive WellWritten : Value → Prop where
  | null : WellWritten .null
  | bool (b : Bool) : WellWritten (.bool b)
  | number {w : List UInt8} (h : IsNumeral w) : WellWritten (.number w)
  | text {w : List UInt8} (h : IsInside w) : WellWritten (.text w)
  | array {items : List Value} (h : ∀ v ∈ items, WellWritten v) : WellWritten (.array items)
  | object {members : List (List UInt8 × Value)} (hkeys : ∀ m ∈ members, IsInside m.1)
      (hvalues : ∀ m ∈ members, WellWritten m.2) : WellWritten (.object members)

theorem wellWritten_ofText (s : String) : (ofText s).WellWritten :=
  .text (isInside_escape s)

theorem wellWritten_ofInt (i : Int) : (ofInt i).WellWritten :=
  .number (isNumeral_int i)

/-- A tree is read up to its end. -/
def Reads (v : Value) : Prop :=
  ∀ n rest, v.render.length ≤ n → EndsNumber rest → value? n (v.render ++ rest) = some (v, rest)

/-- An octet that begins a tree. -/
def Begins (b : UInt8) : Prop :=
  isBlank b = false ∧ b ≠ 0x5d ∧ b ≠ 0x7d

/-- A numeral begins with a minus sign or a digit, and with nothing else. -/
theorem ne_of_numeral {b c : UInt8} (h : b = 0x2d ∨ isDigit b = true) (hminus : c ≠ 0x2d)
    (hdigit : isDigit c = false) : b ≠ c := by
  rintro rfl
  rcases h with h | h
  · exact hminus h
  · exact Bool.false_ne_true (hdigit.symm.trans h)

theorem begins_of_numeral {b : UInt8} (h : b = 0x2d ∨ isDigit b = true) : Begins b := by
  refine ⟨Bool.eq_false_iff.mpr fun hblank => ?_, ne_of_numeral h (by decide) (by decide),
    ne_of_numeral h (by decide) (by decide)⟩
  simp only [isBlank, Bool.or_eq_true, beq_iff_eq] at hblank
  rcases hblank with ((rfl | rfl) | rfl) | rfl <;>
    exact ne_of_numeral h (by decide) (by decide) rfl

theorem WellWritten.begins {v : Value} (h : v.WellWritten) :
    ∃ b tail, v.render = b :: tail ∧ Begins b := by
  cases h with
  | null => exact ⟨_, _, rfl, by decide, by decide, by decide⟩
  | bool b => cases b <;> exact ⟨_, _, rfl, by decide, by decide, by decide⟩
  | number h =>
    obtain ⟨b, tail, hw, hb⟩ := h.begins
    exact ⟨b, tail, hw, begins_of_numeral hb⟩
  | text h => exact ⟨_, _, rfl, by decide, by decide, by decide⟩
  | array h => exact ⟨_, _, rfl, by decide, by decide, by decide⟩
  | object hkeys hvalues => exact ⟨_, _, rfl, by decide, by decide, by decide⟩

theorem WellWritten.length_pos {v : Value} (h : v.WellWritten) : 0 < v.render.length := by
  obtain ⟨b, tail, hv, -⟩ := h.begins
  rw [hv]
  exact Nat.succ_pos _

theorem skipBlank_cons {b : UInt8} (h : isBlank b = false) (rest : List UInt8) :
    skipBlank (b :: rest) = b :: rest :=
  List.dropWhile_cons_of_neg (by simp [h])

theorem reads_number {w : List UInt8} (h : IsNumeral w) : (number w).Reads := by
  intro n rest hn hrest
  obtain ⟨b, tail, rfl, hb⟩ := h.begins
  cases n with
  | zero => simp [render] at hn
  | succ n =>
    have hread := h.ends rest hrest
    have hskip : skipBlank ((number (b :: tail)).render ++ rest) = b :: (tail ++ rest) :=
      skipBlank_cons (begins_of_numeral hb).1 _
    have hne := fun c => ne_of_numeral (c := c) hb
    rw [value?, hskip]
    -- what begins like a numeral begins like nothing else
    split
    case h_7 =>
      rw [show b :: (tail ++ rest) = b :: tail ++ rest from rfl, hread]
      rfl
    all_goals
      rename_i heq
      exact absurd (List.cons.inj heq).1 (hne _ (by decide) (by decide))

theorem reads_text {w : List UInt8} (h : IsInside w) : (text w).Reads := by
  intro n rest hn hrest
  cases n with
  | zero => simp [render] at hn
  | succ n =>
    have hrender : (text w).render ++ rest = 0x22 :: (w ++ 0x22 :: rest) := by
      simp [render]
    rw [hrender, value?, skipBlank_cons (by decide)]
    simp only [h rest, Option.map_some]

theorem renderItems_cons {v : Value} {items : List Value} (h : items ≠ []) :
    renderItems (v :: items) = v.render ++ 0x2c :: renderItems items := by
  cases items with
  | nil => exact absurd rfl h
  | cons w items => rfl

theorem renderMembers_cons {k : List UInt8} {v : Value} {members : List (List UInt8 × Value)}
    (h : members ≠ []) : renderMembers ((k, v) :: members) =
      0x22 :: k ++ 0x22 :: 0x3a :: v.render ++ 0x2c :: renderMembers members := by
  cases members with
  | nil => exact absurd rfl h
  | cons m members => rfl

/-- Items are read one after the other, up to the bracket. -/
theorem items?_render {items : List Value} (hne : items ≠ []) (h : ∀ v ∈ items, v.Reads) (n : Nat)
    (rest : List UInt8) (hn : (renderItems items).length + 1 ≤ n) :
    items? n (renderItems items ++ 0x5d :: rest) = some (items, rest) := by
  induction items generalizing n with
  | nil => exact absurd rfl hne
  | cons v items ih =>
    obtain ⟨m, rfl⟩ : ∃ m, n = m + 1 := ⟨n - 1, by omega⟩
    have hv := h v List.mem_cons_self
    by_cases hitems : items = []
    · subst hitems
      have hread := hv m (0x5d :: rest) (by simpa [renderItems] using hn)
        (endsNumber_cons (by decide) _)
      rw [items?, show renderItems [v] = v.render from rfl, hread]
      rfl
    · rw [renderItems_cons hitems] at hn ⊢
      rw [List.length_append, List.length_cons] at hn
      have hread := hv m (0x2c :: (renderItems items ++ 0x5d :: rest)) (by omega)
        (endsNumber_cons (by decide) _)
      have hrest := ih hitems (fun w hw => h w (List.mem_cons_of_mem v hw)) m (by omega)
      rw [items?, List.append_assoc, List.cons_append, hread]
      simp only [Option.bind_eq_bind, Option.bind_some, skipBlank_cons (show isBlank 0x2c = false by decide),
        hrest]
      rfl

theorem key?_quoted {k : List UInt8} (h : IsInside k) (rest : List UInt8) :
    key? (0x22 :: (k ++ 0x22 :: 0x3a :: rest)) = some (k, rest) := by
  rw [key?, h]
  rfl

/-- Members are read one after the other, up to the brace. -/
theorem members?_render {members : List (List UInt8 × Value)} (hne : members ≠ [])
    (hkeys : ∀ m ∈ members, IsInside m.1) (h : ∀ m ∈ members, m.2.Reads) (n : Nat) (rest : List UInt8)
    (hn : (renderMembers members).length + 1 ≤ n) :
    members? n (renderMembers members ++ 0x7d :: rest) = some (members, rest) := by
  induction members generalizing n with
  | nil => exact absurd rfl hne
  | cons m members ih =>
    obtain ⟨k, v⟩ := m
    obtain ⟨n, rfl⟩ : ∃ m, n = m + 1 := ⟨n - 1, by omega⟩
    have hv : v.Reads := h (k, v) List.mem_cons_self
    have hk : IsInside k := hkeys (k, v) List.mem_cons_self
    by_cases hmembers : members = []
    · subst hmembers
      have hrender : renderMembers [(k, v)] ++ 0x7d :: rest
          = 0x22 :: (k ++ 0x22 :: 0x3a :: (v.render ++ 0x7d :: rest)) := by
        simp [renderMembers]
      have hlength : v.render.length ≤ n := by
        simp only [renderMembers, List.length_append, List.length_cons] at hn
        omega
      have hread := hv n (0x7d :: rest) hlength (endsNumber_cons (by decide) _)
      rw [hrender, members?, skipBlank_cons (by decide), key?_quoted hk]
      simp only [Option.bind_eq_bind, Option.bind_some, hread]
      rfl
    · have hrender : renderMembers ((k, v) :: members) ++ 0x7d :: rest
          = 0x22 :: (k ++ 0x22 :: 0x3a ::
            (v.render ++ 0x2c :: (renderMembers members ++ 0x7d :: rest))) := by
        simp [renderMembers_cons hmembers]
      rw [renderMembers_cons hmembers] at hn
      simp only [List.length_append, List.length_cons] at hn
      have hread := hv n (0x2c :: (renderMembers members ++ 0x7d :: rest)) (by omega)
        (endsNumber_cons (by decide) _)
      have hrest := ih hmembers (fun m hm => hkeys m (List.mem_cons_of_mem _ hm))
        (fun m hm => h m (List.mem_cons_of_mem _ hm)) n (by omega)
      rw [hrender, members?, skipBlank_cons (by decide), key?_quoted hk]
      simp only [Option.bind_eq_bind, Option.bind_some, hread,
        skipBlank_cons (show isBlank 0x2c = false by decide), hrest]
      rfl

theorem reads_array {items : List Value} (hbegins : ∀ v ∈ items, v.WellWritten)
    (h : ∀ v ∈ items, v.Reads) : (array items).Reads := by
  intro n rest hn hrest
  have hlength : (array items).render.length = (renderItems items).length + 2 := by
    simp [render]
  obtain ⟨n, rfl⟩ : ∃ m, n = m + 1 := ⟨n - 1, by omega⟩
  cases items with
  | nil => rfl
  | cons v items =>
    -- what follows the bracket begins an item, so that it is not the closing one
    obtain ⟨b, tail, hb, hblank, hclosing, -⟩ := (hbegins v List.mem_cons_self).begins
    obtain ⟨tail', htail⟩ : ∃ tail', renderItems (v :: items) = b :: tail' := by
      cases items with
      | nil => exact ⟨tail, hb⟩
      | cons w items => exact ⟨_, by rw [renderItems_cons (by simp), hb, List.cons_append]⟩
    have hread := items?_render (List.cons_ne_nil v items) h n rest (by omega)
    have hrender : (array (v :: items)).render ++ rest = 0x5b :: (b :: tail' ++ 0x5d :: rest) := by
      simp [render, htail]
    rw [htail] at hread
    rw [hrender, value?, skipBlank_cons (by decide)]
    simp only [List.cons_append, skipBlank_cons hblank]
    split
    · rename_i heq
      exact absurd (List.cons.inj heq).1 hclosing
    · rw [← List.cons_append, hread]
      rfl

theorem reads_object {members : List (List UInt8 × Value)} (hkeys : ∀ m ∈ members, IsInside m.1)
    (h : ∀ m ∈ members, m.2.Reads) : (object members).Reads := by
  intro n rest hn hrest
  have hlength : (object members).render.length = (renderMembers members).length + 2 := by
    simp [render]
  obtain ⟨n, rfl⟩ : ∃ m, n = m + 1 := ⟨n - 1, by omega⟩
  cases members with
  | nil => rfl
  | cons m members =>
    obtain ⟨tail, htail⟩ : ∃ tail, renderMembers (m :: members) = 0x22 :: tail := by
      cases members with
      | nil => exact ⟨_, rfl⟩
      | cons m' members => exact ⟨_, rfl⟩
    have hread := members?_render (List.cons_ne_nil m members) hkeys h n rest (by omega)
    have hrender : (object (m :: members)).render ++ rest = 0x7b :: (0x22 :: tail ++ 0x7d :: rest) := by
      simp [render, htail]
    rw [htail, List.cons_append] at hread
    rw [hrender, value?, skipBlank_cons (by decide)]
    show (members? n (0x22 :: (tail ++ 0x7d :: rest))).map _ = _
    rw [hread]
    rfl

/-- **A well written tree is read up to its end.** -/
theorem WellWritten.reads {v : Value} (h : v.WellWritten) : v.Reads := by
  induction h with
  | null =>
    intro n rest hn _
    have hpos := WellWritten.null.length_pos
    obtain ⟨n, rfl⟩ : ∃ m, n = m + 1 := ⟨n - 1, by omega⟩
    rfl
  | bool b =>
    intro n rest hn _
    have hpos := (WellWritten.bool b).length_pos
    obtain ⟨n, rfl⟩ : ∃ m, n = m + 1 := ⟨n - 1, by omega⟩
    cases b <;> rfl
  | number h => exact reads_number h
  | text h => exact reads_text h
  | array hwritten ih => exact reads_array hwritten ih
  | object hkeys _ ih => exact reads_object hkeys ih

/-- **A text that is a well written tree is read as it.** -/
theorem WellWritten.read?_render {v : Value} (h : v.WellWritten) : read? v.render = some v := by
  have hread := h.reads (2 * v.render.length + 2) [] (by omega) (by simp [EndsNumber])
  rw [List.append_nil] at hread
  unfold read?
  rw [hread]
  rfl

end Value

end BorderSync.Json
