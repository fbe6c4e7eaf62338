/-
# BorderSync.Proofs.Endpoint.Segments -- what the segments of a path stand for

A segment stands for the text that reading its escapes gives. Almost every text can stand in a path: it is
escaped, and then it is one segment that stands for it. The exceptions are the two dot segments, and texts
with line breaks or tabs, which vanish from a path.
-/
import BorderSync.Endpoint.Location
import BorderSync.Proofs.Text.Percent

namespace BorderSync.Endpoint.Location

variable {web : Bool}

/-- A text as a segment. -/
def escaped (web : Bool) (raw : String) : String :=
  String.ofList (Text.Percent.encode (Text.Percent.inSegment web) raw.toList)

/-- What is left of a text in a path. -/
def kept (raw : String) : List Char :=
  raw.toList.filter fun c => !isLineBreakOrTab c

/-- **Steady**: a text that a path takes as it is. -/
def IsSteady (raw : String) : Prop :=
  raw ≠ "." ∧ raw ≠ ".." ∧ ∀ c ∈ raw.toList, c ≠ '\t' ∧ c ≠ '\n' ∧ c ≠ '\r'

instance (raw : String) : Decidable (IsSteady raw) :=
  -- only the characters of the text are looked at
  haveI : Decidable (∀ c ∈ raw.toList, c ≠ '\t' ∧ c ≠ '\n' ∧ c ≠ '\r') := List.decidableBAll _ raw.toList
  inferInstanceAs (Decidable (_ ∧ _ ∧ _))

/-! ## Segments -/

/-- **A text that is escaped is what its segment stands for.** -/
theorem shown?_escaped (raw : String) : shown? (escaped web raw) = some raw := by
  have hback : (escaped web raw).toList = Text.Percent.encode (Text.Percent.inSegment web) raw.toList :=
    String.toList_ofList
  have hpercent : Text.Percent.inSegment web '%' = true := by cases web <;> decide
  unfold shown?
  rw [hback, Text.Percent.decode_encode hpercent, Text.Utf8.decode?_encode, Option.map_some,
    String.ofList_toList]

/-- Different texts are different segments. -/
theorem escaped_injective {raw raw' : String} (h : escaped web raw = escaped web raw') : raw = raw' := by
  have hshown := congrArg shown? h
  rw [shown?_escaped, shown?_escaped] at hshown
  exact Option.some.inj hshown

/-- A text that is escaped has no slash. -/
theorem slash_notMem_escaped (raw : String) : '/' ∉ (escaped web raw).toList := by
  have hback : (escaped web raw).toList = Text.Percent.encode (Text.Percent.inSegment web) raw.toList :=
    String.toList_ofList
  have hslash : Text.Percent.inSegment web '/' = true := by cases web <;> decide
  rw [hback]
  exact Text.Percent.slash_notMem_encode hslash _

/-- Nothing is left out of a text exactly if it has no line breaks and no tabs. -/
theorem kept_eq_iff {raw : String} :
    kept raw = raw.toList ↔ ∀ c ∈ raw.toList, c ≠ '\t' ∧ c ≠ '\n' ∧ c ≠ '\r' := by
  unfold kept
  rw [List.filter_eq_self]
  refine forall₂_congr fun c _ => ?_
  simp only [isLineBreakOrTab, Bool.not_eq_true', Bool.or_eq_false_iff, beq_eq_false_iff_ne, ne_eq,
    and_assoc]

theorem IsSteady.kept_eq {raw : String} (h : IsSteady raw) : kept raw = raw.toList :=
  kept_eq_iff.mpr h.2.2

/-- What a text that is no dot segment does depends on what is left of it only. -/
theorem addSegment_eq {segments : List String} (hsegments : segments ≠ [""]) {raw : String} (hone : raw ≠ ".")
    (htwo : raw ≠ "..") : addSegment web segments raw =
      if kept raw = ['.'] then segments ++ [""]
      else if kept raw = ['.', '.'] then segments.dropLast ++ [""]
      else segments ++ [escaped web (String.ofList (kept raw))] := by
  have hdots : ¬ (raw = "." ∨ raw = "..") := not_or.mpr ⟨hone, htwo⟩
  unfold addSegment
  rw [if_neg hdots, if_neg hsegments, escaped, String.toList_ofList]
  rfl

/-- A steady text becomes one segment. -/
theorem addSegment_steady {segments : List String} (hsegments : segments ≠ [""]) {raw : String}
    (hraw : IsSteady raw) : addSegment web segments raw = segments ++ [escaped web raw] := by
  have hone : raw.toList ≠ ['.'] := fun heq => hraw.1 (String.toList_injective heq)
  have htwo : raw.toList ≠ ['.', '.'] := fun heq => hraw.2.1 (String.toList_injective heq)
  rw [addSegment_eq hsegments hraw.1 hraw.2.1, hraw.kept_eq, if_neg hone, if_neg htwo, String.ofList_toList]

/-- Steady texts become one segment each. -/
theorem foldl_addSegment {segments : List String} (hnone : segments ≠ []) (hlone : segments ≠ [""])
    {raws : List String} (hraws : ∀ raw ∈ raws, IsSteady raw) :
    raws.foldl (addSegment web) segments = segments ++ raws.map (escaped web) := by
  induction raws generalizing segments with
  | nil => simp
  | cons raw raws ih =>
    have hlong : segments ++ [escaped web raw] ≠ [""] := by
      intro heq
      have hlength := congrArg List.length heq
      rw [List.length_append, List.length_singleton, List.length_singleton] at hlength
      exact hnone (List.eq_nil_of_length_eq_zero (by omega))
    rw [List.foldl_cons, addSegment_steady hlone (hraws raw List.mem_cons_self),
      ih (by simp) hlong fun raw' h => hraws raw' (List.mem_cons_of_mem raw h), List.map_cons,
      List.append_assoc, List.singleton_append]

/-- What a segment does to others before it does not reach beyond the last one. -/
theorem addSegment_append {before : List String} (hbefore : before ≠ []) {last : String} (hlast : last ≠ "")
    (raw : String) : addSegment web (before ++ [last]) raw = before ++ addSegment web [last] raw := by
  have hwhole : before ++ [last] ≠ [""] := by
    intro heq
    have hlength := congrArg List.length heq
    rw [List.length_append, List.length_singleton, List.length_singleton] at hlength
    exact hbefore (List.eq_nil_of_length_eq_zero (by omega))
  have hsingle : [last] ≠ [""] := fun heq => hlast (List.cons.inj heq).1
  unfold addSegment
  by_cases hdots : raw = "." ∨ raw = ".."
  · rw [if_pos hdots, if_pos hdots]
  · rw [if_neg hdots, if_neg hdots, if_neg hwhole, if_neg hsingle]
    generalize raw.toList.filter (fun c => !isLineBreakOrTab c) = left
    by_cases hone : left = ['.']
    · simp [hone]
    · by_cases htwo : left = ['.', '.']
      · simp [htwo]
      · simp [hone, htwo]

/-- **A text is one segment that stands for it exactly if it is steady.** -/
theorem addSegment_shown_iff {last : String} (hlast : last ≠ "") (raw : String) :
    (addSegment web [last] raw).map shown? = [shown? last, some raw] ↔ IsSteady raw := by
  have hsingle : [last] ≠ [""] := fun heq => hlast (List.cons.inj heq).1
  constructor
  · intro h
    by_cases hdots : raw = "." ∨ raw = ".."
    · -- a dot segment adds nothing
      unfold addSegment at h
      rw [if_pos hdots] at h
      exact absurd (congrArg List.length h) (by simp)
    · obtain ⟨hone, htwo⟩ := not_or.mp hdots
      rw [addSegment_eq hsingle hone htwo] at h
      refine ⟨hone, htwo, kept_eq_iff.mp ?_⟩
      by_cases hleft : kept raw = ['.']
      · -- an empty segment stands for the empty text, of which no dot is left
        rw [if_pos hleft] at h
        have hempty : some "" = some raw := (List.cons.inj (List.cons.inj h).2).1
        obtain rfl := Option.some.inj hempty
        exact absurd hleft (by decide)
      · rw [if_neg hleft] at h
        by_cases hleft' : kept raw = ['.', '.']
        · rw [if_pos hleft'] at h
          exact absurd (congrArg List.length h) (by simp)
        · rw [if_neg hleft', List.map_append, List.map_singleton, List.map_singleton, shown?_escaped] at h
          have hsame : some (String.ofList (kept raw)) = some raw := (List.cons.inj (List.cons.inj h).2).1
          have hlist := congrArg String.toList (Option.some.inj hsame)
          rwa [String.toList_ofList] at hlist
  · intro hraw
    rw [addSegment_steady hsingle hraw, List.map_append, List.map_singleton, List.map_singleton,
      shown?_escaped]
    rfl

end BorderSync.Endpoint.Location
