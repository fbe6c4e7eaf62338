/-
# BorderSync.Proofs.Border.Place -- where the entries of an upstream are, and where one of them is

An entry is addressed below the place of its upstream: one segment more, which is the number of the
entry as text. Nothing in a number has to be escaped, and different numbers have different texts.
-/
import BorderSync.Border.Client
import BorderSync.Proofs.Endpoint.Segments
import Std.Data.String.ToInt

namespace BorderSync.Border

open Endpoint (Location)

/-! ## Numbers as segments -/

/-- The characters of a whole number. -/
theorem mem_toString_int {i : Int} {c : Char} (h : c ∈ (toString i).toList) :
    c.isDigit = true ∨ c = '-' := by
  rw [Int.toString_eq_repr, Int.repr_eq_if] at h
  split at h
  · rw [Nat.toList_repr] at h
    exact .inl (Nat.isDigit_of_mem_toDigits (by decide) (by decide) h)
  · rw [String.toList_append, List.mem_append] at h
    rcases h with h | h
    · exact .inr (by simpa using h)
    · rw [Nat.toList_repr] at h
      exact .inl (Nat.isDigit_of_mem_toDigits (by decide) (by decide) h)

variable {web : Bool}

/-- Digits and the minus sign are not escaped in a segment. -/
theorem encodeChar_number {c : Char} (h : c.isDigit = true ∨ c = '-') :
    Text.Percent.encodeChar (Text.Percent.inSegment web) c = [c] := by
  have hrange : 0x2d ≤ c.toNat ∧ c.toNat ≠ 0x2f ∧ c.toNat ≤ 0x39 := by
    rcases h with h | rfl
    · simp only [Char.isDigit, ge_iff_le, Bool.and_eq_true, decide_eq_true_eq,
        UInt32.le_iff_toNat_le] at h
      have hlow : 0x30 ≤ c.toNat := h.1
      have hhigh : c.toNat ≤ 0x39 := h.2
      omega
    · decide
  have hne : ∀ d : Char, d.toNat < 0x2d ∨ d.toNat = 0x2f ∨ 0x39 < d.toNat → (c == d) = false := by
    intro d hd
    refine beq_eq_false_iff_ne.mpr ?_
    intro hcd
    rw [hcd] at hrange
    omega
  -- all characters that are escaped lie outside the range
  have hsegment : Text.Percent.inSegment web c = false := by
    simp (disch := decide) only [Text.Percent.inSegment, Text.Percent.inPath,
      Text.Percent.isControl, hne, Bool.or_false, Bool.and_false, Bool.or_eq_false_iff,
      decide_eq_false_iff_not, beq_eq_false_iff_ne]
    omega
  unfold Text.Percent.encodeChar
  rw [hsegment, Bool.or_false, if_neg (by rw [decide_eq_true_eq]; omega)]

/-- A number is a text that a path takes as it is. -/
theorem steady_number (i : Int) : Location.IsSteady (toString i) := by
  have hdot : '.' ∉ (toString i).toList := by
    intro hmem
    rcases mem_toString_int hmem with hdigit | hminus
    · exact absurd hdigit (by decide)
    · exact absurd hminus (by decide)
  refine ⟨?_, ?_, ?_⟩
  · intro heq
    exact hdot (heq ▸ List.mem_singleton_self _)
  · intro heq
    exact hdot (heq ▸ List.mem_cons_self)
  · intro c hc
    rcases mem_toString_int hc with hdigit | rfl
    · refine ⟨?_, ?_, ?_⟩ <;>
      · rintro rfl
        exact absurd hdigit (by decide)
    · decide

/-- Nothing in a number is escaped. -/
theorem escaped_number (i : Int) : Location.escaped web (toString i) = toString i := by
  have hencode : Text.Percent.encode (Text.Percent.inSegment web) (toString i).toList
      = (toString i).toList := by
    unfold Text.Percent.encode
    have hchars : ∀ c ∈ (toString i).toList, Text.Percent.encodeChar (Text.Percent.inSegment web) c = [c] :=
      fun c hc => encodeChar_number (mem_toString_int hc)
    generalize (toString i).toList = cs at hchars
    induction cs with
    | nil => rfl
    | cons c cs ih =>
      rw [List.flatMap_cons, hchars c List.mem_cons_self,
        ih fun d hd => hchars d (List.mem_cons_of_mem c hd)]
      rfl
  rw [Location.escaped, hencode, String.ofList_toList]

/-- A number becomes one segment, as it is. -/
theorem addSegment_number {segments : List String} (h : segments ≠ [""]) (i : Int) :
    Location.addSegment web segments (toString i) = segments ++ [toString i] := by
  rw [Location.addSegment_steady h (steady_number i), escaped_number]

/-! ## Places -/

/-- The place of the entries of an upstream ends in a segment of its own. -/
theorem addSegment_servers (segments : List String) :
    Location.addSegment web segments "servers" ≠ [""] := by
  have hkept : "servers".toList.filter (fun c => !Endpoint.isLineBreakOrTab c)
      = "servers".toList := by decide
  have hencode : Text.Percent.encode (Text.Percent.inSegment web) "servers".toList
      = "servers".toList := by cases web <;> decide
  unfold Location.addSegment
  rw [if_neg (by decide)]
  simp only [hkept, hencode]
  rw [if_neg (by decide), if_neg (by decide), String.ofList_toList]
  intro h
  have hlast := congrArg List.getLast? h
  simp at hlast

/-- **An entry is one segment below its upstream.** -/
theorem serversAt_entry (c : Client) (context : Context) (upstream : String) (i : Int) :
    c.serversAt context upstream (some i) = (c.serversAt context upstream none).map fun l =>
      { l with segments := l.segments ++ [toString i] } := by
  unfold Client.serversAt Client.placeBy
  split
  · rfl
  · rfl
  · rename_i l hl
    simp only [Except.map, Location.below, Client.serverSegments, Option.map_some, Option.map_none,
      Option.toList_some, Option.toList_none, List.append_nil, List.foldl_append, List.foldl_cons,
      List.foldl_nil]
    rw [addSegment_number (addSegment_servers _)]

/-- There is no place without an endpoint. -/
theorem endpoint_ne_empty {endpoint : String} {context : Context} {upstream : String} {id : Option Int}
    {l : Location} (h : (Client.new endpoint).serversAt context upstream id = .ok l) :
    endpoint ≠ "" := by
  rintro rfl
  have hread : Endpoint.read (Client.new "").endpoint = .error .noScheme := rfl
  unfold Client.serversAt Client.placeBy at h
  rw [hread] at h
  exact absurd h (by simp)

end BorderSync.Border
