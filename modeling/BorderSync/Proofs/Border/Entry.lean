/-
# BorderSync.Proofs.Border.Entry -- what is posted is what the server reads

The octets of an entry are read back as the same entry, whatever texts and numbers it has and whichever of
its fields are there. Only a fail timeout is lost on the way to a stream upstream, whose entries have none.
-/
import BorderSync.Border.Entry
import BorderSync.Proofs.Json.Tree
import Mathlib.Data.List.Nodup

namespace BorderSync.Border.Entry

open Json

/-! ## Members that may be missing -/

/-- The members that are there. -/
def present (fields : List (String × Option Value)) : List (String × Value) :=
  fields.filterMap fun f => f.2.map fun v => (f.1, v)

theorem present_cons (key : String) (v : Option Value) (fields : List (String × Option Value)) :
    present ((key, v) :: fields) = (v.toList.map fun w => (key, w)) ++ present fields := by
  cases v <;> rfl

theorem mem_present {fields : List (String × Option Value)} {m : String × Value} (h : m ∈ present fields) :
    m.1 ∈ fields.map Prod.fst := by
  obtain ⟨f, hf, hm⟩ := List.mem_filterMap.mp h
  obtain ⟨v, -, rfl⟩ := Option.map_eq_some_iff.mp hm
  exact List.mem_map_of_mem hf

section Present

variable {fields : List (String × Option Value)} (h : (fields.map Prod.fst).Nodup)

include h

/-- A member that is there is found under its key, and a missing one reads as `null`. -/
theorem valueOf_present {key : String} {v : Option Value} (hf : (key, v) ∈ fields) :
    valueOf (present fields) key = v.getD .null := by
  induction fields with
  | nil => exact absurd hf List.not_mem_nil
  | cons f fields ih =>
    obtain ⟨key', w⟩ := f
    obtain ⟨hkey', hrest⟩ := List.nodup_cons.mp h
    rw [present_cons]
    rcases List.mem_cons.mp hf with heq | hmem
    · obtain ⟨rfl, rfl⟩ := Prod.mk.inj heq
      cases v with
      | some v => simp [valueOf]
      | none =>
        -- no other member has this key
        have hnone : (present fields).lookup key = none := by
          refine List.lookup_eq_none_iff.mpr ?_
          intro m hm
          rw [bne_iff_ne]
          rintro rfl
          exact hkey' (mem_present hm)
        simp [valueOf, hnone]
    · have hne : key ≠ key' := by
        rintro rfl
        exact hkey' (List.mem_map.mpr ⟨_, hmem, rfl⟩)
      rw [← ih hrest hmem]
      cases w with
      | none => rfl
      | some w => simp [valueOf, List.lookup_cons, beq_eq_false_iff_ne.mpr hne]

/-- No key occurs twice. -/
theorem onceEach_present (known : List String) : onceEach known (present fields) = true := by
  refine List.all_eq_true.mpr fun key _ => decide_eq_true ?_
  have hkeys : ((present fields).map Prod.fst).Sublist (fields.map Prod.fst) := by
    clear h
    induction fields with
    | nil => exact List.Sublist.refl _
    | cons f fields ih =>
      obtain ⟨key, v⟩ := f
      rw [present_cons]
      cases v with
      | none => exact ih.cons key
      | some v => exact ih.cons_cons key
  have hcount := List.nodup_iff_count_le_one.mp (h.sublist hkeys) key
  rw [List.count_eq_countP, List.countP_map] at hcount
  rwa [← List.countP_eq_length_filter]

end Present

/-- Keys are read as they were written. -/
theorem named?_escape (members : List (String × Value)) :
    named? (members.map fun m => (escape m.1, m.2)) = some members := by
  induction members with
  | nil => rfl
  | cons m members ih =>
    unfold named? at ih ⊢
    rw [List.map_cons, List.mapM_cons, ih]
    simp [meaning?_escape]

/-! ## Entries -/

/-- The numbers of an entry fit 64 bits. -/
structure Fits (e : Entry) : Prop where
  id : ∀ i ∈ e.id, FitsInt64 i
  weight : ∀ i ∈ e.weight, FitsInt64 i
  maxFails : ∀ i ∈ e.maxFails, FitsInt64 i

/-- What an upstream of this kind keeps of an entry. -/
def shown (context : Context) (e : Entry) : Entry :=
  match context with
  | .http => e
  | .stream => { e with failTimeout := none }

theorem server_shown (context : Context) (e : Entry) : (e.shown context).server = e.server := by
  cases context <;> rfl

/-- The fields of an entry in writing order. -/
def fields (e : Entry) : List (String × Option Value) :=
  [("id", e.id.map .ofInt), ("server", some (.ofText e.server)), ("weight", e.weight.map .ofInt),
    ("max_fails", e.maxFails.map .ofInt), ("fail_timeout", e.failTimeout.map .ofText),
    ("down", e.down.map .bool)]

theorem nodup_fields (e : Entry) : (e.fields.map Prod.fst).Nodup := by
  show ["id", "server", "weight", "max_fails", "fail_timeout", "down"].Nodup
  decide

theorem member_eq {α : Type} {key : String} (hkey : octets key = escape key) (write : α → Value)
    (o : Option α) : member key write o
      = ((o.map write).toList.map fun v => (key, v)).map fun m => (escape m.1, m.2) := by
  cases o <;> simp [member, hkey]

/-- An entry is written as the fields that are there. -/
theorem toJson_eq (context : Context) (e : Entry) : e.toJson context =
    .object ((present (e.shown context).fields).map fun m => (escape m.1, m.2)) := by
  have hserver : octets "server" = escape "server" := by decide
  have hid := member_eq (show octets "id" = escape "id" by decide) Value.ofInt e.id
  have hweight := member_eq (show octets "weight" = escape "weight" by decide) Value.ofInt e.weight
  have hmaxFails := member_eq (show octets "max_fails" = escape "max_fails" by decide) Value.ofInt e.maxFails
  have hfailTimeout := member_eq (show octets "fail_timeout" = escape "fail_timeout" by decide)
    Value.ofText e.failTimeout
  have hdown := member_eq (show octets "down" = escape "down" by decide) Value.bool e.down
  have hnil : present [] = [] := rfl
  unfold toJson
  cases context with
  | http =>
    rw [hid, hweight, hmaxFails, hfailTimeout, hdown]
    simp [fields, shown, present_cons, hserver, hnil]
  | stream =>
    rw [hid, hweight, hmaxFails, hdown]
    simp [fields, shown, present_cons, hserver, hnil]

theorem wellWritten_of_mem_fields {e : Entry} {f : String × Option Value} (hf : f ∈ e.fields) {v : Value}
    (hv : f.2 = some v) : v.WellWritten := by
  simp only [fields, List.mem_cons, List.not_mem_nil, or_false] at hf
  rcases hf with rfl | rfl | rfl | rfl | rfl | rfl
  · obtain ⟨i, -, rfl⟩ := Option.map_eq_some_iff.mp hv
    exact Value.wellWritten_ofInt i
  · obtain rfl := Option.some.inj hv
    exact Value.wellWritten_ofText e.server
  · obtain ⟨i, -, rfl⟩ := Option.map_eq_some_iff.mp hv
    exact Value.wellWritten_ofInt i
  · obtain ⟨i, -, rfl⟩ := Option.map_eq_some_iff.mp hv
    exact Value.wellWritten_ofInt i
  · obtain ⟨s, -, rfl⟩ := Option.map_eq_some_iff.mp hv
    exact Value.wellWritten_ofText s
  · obtain ⟨b, -, rfl⟩ := Option.map_eq_some_iff.mp hv
    exact .bool b

theorem wellWritten_toJson (context : Context) (e : Entry) : (e.toJson context).WellWritten := by
  rw [toJson_eq]
  refine .object ?_ ?_
  · intro m hm
    obtain ⟨m', -, rfl⟩ := List.mem_map.mp hm
    exact isInside_escape m'.1
  · intro m hm
    obtain ⟨m', hm', rfl⟩ := List.mem_map.mp hm
    obtain ⟨f, hf, hmap⟩ := List.mem_filterMap.mp hm'
    obtain ⟨v, hv, rfl⟩ := Option.map_eq_some_iff.mp hmap
    exact wellWritten_of_mem_fields hf hv

theorem optional_ofInt {o : Option Int} (h : ∀ i ∈ o, FitsInt64 i) :
    ((o.map Value.ofInt).getD .null).optional Value.int? = some o := by
  cases o with
  | none => rfl
  | some i =>
    show (int64? (octets (toString i))).map some = _
    rw [int64?_int (h i rfl)]
    rfl

theorem optional_ofText (o : Option String) :
    ((o.map Value.ofText).getD .null).optional Value.text? = some o := by
  cases o with
  | none => rfl
  | some s => simp [Value.optional, Value.ofText, Value.text?, meaning?_escape]

theorem optional_bool (o : Option Bool) : ((o.map Value.bool).getD .null).optional Value.bool? = some o := by
  cases o <;> rfl

/-- The fields of an entry make up the entry. -/
theorem ofFields?_fields {e : Entry} (h : e.Fits) :
    ofFields? (valueOf (present e.fields) "id") (valueOf (present e.fields) "server")
      (valueOf (present e.fields) "weight") (valueOf (present e.fields) "max_fails")
      (valueOf (present e.fields) "fail_timeout") (valueOf (present e.fields) "down") = some e := by
  have hvalue {key : String} {v : Option Value} (hf : (key, v) ∈ e.fields) :
      valueOf (present e.fields) key = v.getD .null := valueOf_present e.nodup_fields hf
  have hid := hvalue (show ("id", e.id.map .ofInt) ∈ e.fields by simp [fields])
  have hserver := hvalue (show ("server", some (.ofText e.server)) ∈ e.fields by simp [fields])
  have hweight := hvalue (show ("weight", e.weight.map .ofInt) ∈ e.fields by simp [fields])
  have hmaxFails := hvalue (show ("max_fails", e.maxFails.map .ofInt) ∈ e.fields by simp [fields])
  have hfailTimeout := hvalue
    (show ("fail_timeout", e.failTimeout.map .ofText) ∈ e.fields by simp [fields])
  have hdown := hvalue (show ("down", e.down.map .bool) ∈ e.fields by simp [fields])
  unfold ofFields?
  rw [hid, hserver, hweight, hmaxFails, hfailTimeout, hdown, optional_ofInt h.id, optional_ofInt h.weight,
    optional_ofInt h.maxFails, optional_ofText, optional_bool,
    show ((some (Value.ofText e.server)).getD .null).text? = some e.server from meaning?_escape e.server]
  rfl

/-- **What is posted is what the server reads.** -/
theorem decode?_encode (context : Context) {e : Entry} (h : e.Fits) :
    decode? context (e.encode context) = some (e.shown context) := by
  have hfits : (e.shown context).Fits := by cases context <;> exact ⟨h.id, h.weight, h.maxFails⟩
  have hfields := ofFields?_fields hfits
  unfold decode? encode
  rw [(wellWritten_toJson context e).read?_render, Option.bind_some, toJson_eq]
  simp only [ofJson?, named?_escape, Option.bind_eq_bind, Option.bind_some,
    onceEach_present (nodup_fields _), if_true]
  cases context with
  | http => exact hfields
  | stream =>
    have hnone : valueOf (present (e.shown .stream).fields) "fail_timeout" = .null :=
      valueOf_present (nodup_fields _) (v := none) (by simp [fields, shown])
    rw [hnone] at hfields
    exact hfields

end BorderSync.Border.Entry
