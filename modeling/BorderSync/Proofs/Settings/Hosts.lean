/-
# BorderSync.Proofs.Settings.Hosts -- a list of hosts is read as whoever wrote it meant it

Whoever writes down hosts with commas between them may put white space around each of them, may leave items
blank, and may end the list with a comma. `Lists` describes all that can be written for a list of hosts in
this way. Reading is the other direction: every text is written for exactly one list of hosts, and that list
is what is read.
-/
import BorderSync.Proofs.Text.Blank
import BorderSync.Proofs.Text.Cut
import BorderSync.Settings.Basic

namespace BorderSync.Settings

/-! ## What is written -/

/-- **A host**: it is not empty, no comma is in it, and no white space is around it. -/
structure IsHost (h : String) : Prop where
  full : h ≠ ""
  whole : ',' ∉ h.toList
  first : ∀ c, h.toList.head? = some c → Text.isBlank c = false
  last : ∀ c, h.toList.getLast? = some c → Text.isBlank c = false

theorem isHost_iff {h : String} : IsHost h ↔ h ≠ "" ∧ ',' ∉ h.toList ∧
    (h.toList.head?.all fun c => !Text.isBlank c) = true ∧
    (h.toList.getLast?.all fun c => !Text.isBlank c) = true := by
  simp only [Option.all_eq_true, Bool.not_eq_true']
  exact ⟨fun hh => ⟨hh.full, hh.whole, hh.first, hh.last⟩,
    fun ⟨hfull, hwhole, hfirst, hlast⟩ => ⟨hfull, hwhole, hfirst, hlast⟩⟩

instance (h : String) : Decidable (IsHost h) :=
  decidable_of_iff _ isHost_iff.symm

/-- **Padding**: nothing but white space, and maybe none at all. -/
def IsPadding (s : String) : Prop :=
  ∀ c ∈ s.toList, Text.isBlank c = true

instance (s : String) : Decidable (IsPadding s) :=
  List.decidableBAll (fun c => Text.isBlank c = true) s.toList

/-- **Items that list hosts**, in order: each is a host with padding around it, or is blank. -/
inductive Lists : List String → List String → Prop
  | nil : Lists [] []
  | blank {item : String} {items hosts : List String} :
      IsPadding item → Lists items hosts → Lists (item :: items) hosts
  | host {lead h tail : String} {items hosts : List String} :
      IsPadding lead → IsHost h → IsPadding tail → Lists items hosts →
        Lists ((lead ++ h ++ tail) :: items) (h :: hosts)

/-! ## What an item holds -/

/-- **The hosts that items hold**, one for each item that is not blank. -/
def held (items : List (List Char)) : List String :=
  ((items.map Text.trimChars).filter fun h => !h.isEmpty).map String.ofList

/-- A text is cut at its commas, and what its items hold is read. -/
theorem parseHosts_eq_held (raw : String) : parseHosts raw = held (raw.toList.splitOn ',') := by
  rw [← Text.splitOnChar_eq_splitOn]
  rfl

theorem held_append (items more : List (List Char)) : held (items ++ more) = held items ++ held more := by
  simp only [held, List.map_append, List.filter_append]

theorem held_cons (item : List Char) (items : List (List Char)) :
    held (item :: items) = held [item] ++ held items :=
  held_append [item] items

/-- An item of which trimming leaves nothing holds no host. -/
theorem held_of_blank {item : List Char} (h : Text.trimChars item = []) : held [item] = [] := by
  simp only [held, List.map_cons, List.map_nil, h]
  rfl

/-- An item of which trimming leaves something holds that. -/
theorem held_of_full {item : List Char} (h : Text.trimChars item ≠ []) :
    held [item] = [String.ofList (Text.trimChars item)] := by
  have hfull : (!(Text.trimChars item).isEmpty) = true := by simpa using h
  simp only [held, List.map_cons, List.map_nil, List.filter_cons, List.filter_nil, hfull, if_true]

/-- Of padding trimming leaves nothing. -/
theorem IsPadding.trimChars {s : String} (h : IsPadding s) : Text.trimChars s.toList = [] :=
  (Text.Trimmed.eq_trimChars ⟨⟨s.toList, [], by simp, h, by simp⟩, by simp, by simp⟩).symm

/-- Of a host with padding around it trimming leaves the host. -/
theorem IsHost.trimChars {lead h tail : String} (hhost : IsHost h) (hlead : IsPadding lead)
    (htail : IsPadding tail) : Text.trimChars (lead ++ h ++ tail).toList = h.toList :=
  (Text.Trimmed.eq_trimChars
    ⟨⟨lead.toList, tail.toList, by rw [String.toList_append, String.toList_append], hlead, htail⟩,
      hhost.first, hhost.last⟩).symm

/-- **Items hold the hosts that they list.** -/
theorem Lists.held_eq {items hosts : List String} (h : Lists items hosts) :
    held (items.map String.toList) = hosts := by
  induction h with
  | nil => rfl
  | blank hitem _ ih => rw [List.map_cons, held_cons, held_of_blank hitem.trimChars, ih, List.nil_append]
  | @host _ h _ _ _ hlead hhost htail _ ih =>
    have hleft := hhost.trimChars hlead htail
    have hfull : h.toList ≠ [] := by simpa using hhost.full
    rw [List.map_cons, held_cons, held_of_full (hleft ▸ hfull), hleft, String.ofList_toList, ih]
    rfl

/-! ## Commas -/

/-- Padding has no comma, for a comma is not white space. -/
theorem IsPadding.whole {s : String} (h : IsPadding s) : ',' ∉ s.toList :=
  fun hmem => absurd (h ',' hmem) (by decide)

/-- No item of a list has a comma. -/
theorem Lists.whole {items hosts : List String} (h : Lists items hosts) :
    ∀ item ∈ items.map String.toList, ',' ∉ item := by
  induction h with
  | nil => exact fun item hmem => absurd hmem List.not_mem_nil
  | blank hitem _ ih => exact List.forall_mem_cons.mpr ⟨hitem.whole, ih⟩
  | host hlead hhost htail _ ih =>
    refine List.forall_mem_cons.mpr ⟨?_, ih⟩
    rw [String.toList_append, String.toList_append, List.mem_append, List.mem_append]
    rintro ((hmem | hmem) | hmem)
    · exact hlead.whole hmem
    · exact hhost.whole hmem
    · exact htail.whole hmem

/-- What trimming leaves of an item without a comma is a host. -/
theorem isHost_trimChars {item : List Char} (hwhole : ',' ∉ item) (hfull : Text.trimChars item ≠ []) :
    IsHost (String.ofList (Text.trimChars item)) := by
  have htrimmed := Text.trimmed_trimChars item
  obtain ⟨lead, tail, haround, -, -⟩ := htrimmed.around
  constructor
  case full => simpa using hfull
  case whole =>
    rw [String.toList_ofList]
    intro hmem
    refine hwhole ?_
    rw [haround]
    exact List.mem_append_left _ (List.mem_append_right _ hmem)
  case first =>
    rw [String.toList_ofList]
    exact htrimmed.first
  case last =>
    rw [String.toList_ofList]
    exact htrimmed.last

/-- **Items without a comma list what they hold.** -/
theorem lists_held {items : List (List Char)} (h : ∀ item ∈ items, ',' ∉ item) :
    Lists (items.map String.ofList) (held items) := by
  induction items with
  | nil => exact .nil
  | cons item items ih =>
    obtain ⟨hwhole, hrest⟩ := List.forall_mem_cons.mp h
    obtain ⟨lead, tail, haround, hlead, htail⟩ := (Text.trimmed_trimChars item).around
    have hpad : ∀ {s : List Char}, (∀ c ∈ s, Text.isBlank c = true) → IsPadding (String.ofList s) := by
      intro s hs
      rw [IsPadding, String.toList_ofList]
      exact hs
    rw [List.map_cons, held_cons]
    by_cases hblank : Text.trimChars item = []
    · rw [held_of_blank hblank]
      refine .blank (hpad ?_) (ih hrest)
      rw [haround, hblank, List.append_nil]
      exact List.forall_mem_append.mpr ⟨hlead, htail⟩
    · have hitem : String.ofList item =
          String.ofList lead ++ String.ofList (Text.trimChars item) ++ String.ofList tail := by
        rw [← String.ofList_append, ← String.ofList_append, ← haround]
      rw [held_of_full hblank, hitem]
      exact .host (hpad hlead) (isHost_trimChars hwhole hblank) (hpad htail) (ih hrest)

/-- The hosts of a list are hosts. -/
theorem Lists.isHost {items hosts : List String} (h : Lists items hosts) : ∀ host ∈ hosts, IsHost host := by
  induction h with
  | nil => exact fun host hmem => absurd hmem List.not_mem_nil
  | blank _ _ ih => exact ih
  | host _ hhost _ _ ih => exact List.forall_mem_cons.mpr ⟨hhost, ih⟩

/-- Hosts list themselves. -/
theorem lists_self {hosts : List String} (h : ∀ host ∈ hosts, IsHost host) : Lists hosts hosts := by
  induction hosts with
  | nil => exact .nil
  | cons host hosts ih =>
    obtain ⟨hhost, hrest⟩ := List.forall_mem_cons.mp h
    have hnone : IsPadding "" := by simp [IsPadding]
    simpa using Lists.host hnone hhost hnone (ih hrest)

/-! ## What is read -/

/-- **Items are read for the hosts that they list.** -/
theorem parseHosts_intercalate {items hosts : List String} (h : Lists items hosts) :
    parseHosts (",".intercalate items) = hosts := by
  rw [parseHosts_eq_held, String.toList_intercalate]
  by_cases hnone : items = []
  · subst hnone
    cases h
    rfl
  · have hsome : items.map String.toList ≠ [] := by simpa using hnone
    rw [show ",".toList = [','] from rfl, List.splitOn_intercalate ',' h.whole hsome]
    exact h.held_eq

/-- Every text consists of items that list what is read of it. -/
theorem exists_lists_parseHosts (raw : String) :
    ∃ items, raw = ",".intercalate items ∧ Lists items (parseHosts raw) := by
  refine ⟨(raw.toList.splitOn ',').map String.ofList, ?_, ?_⟩
  · rw [← String.toList_inj, String.toList_intercalate, List.map_map]
    have hsame : String.toList ∘ String.ofList = id := funext fun s => String.toList_ofList
    rw [hsame, List.map_id]
    exact (List.intercalate_splitOn ',').symm
  · rw [parseHosts_eq_held]
    refine lists_held ?_
    rw [← Text.splitOnChar_eq_splitOn]
    exact fun item hmem => Text.not_mem_of_mem_splitOnChar hmem

/-- **Read as it is meant**: what is read of a text. -/
structure ReadAsMeant (raw : String) : Prop where
  /-- Exactly the hosts for which the text can have been written are read. -/
  exact : ∀ hosts, parseHosts raw = hosts ↔ ∃ items, raw = ",".intercalate items ∧ Lists items hosts
  hosts : ∀ host ∈ parseHosts raw, IsHost host
  /-- Of two texts with a comma between them both are read, one after the other. -/
  joined : ∀ more, parseHosts (raw ++ "," ++ more) = parseHosts raw ++ parseHosts more
  /-- What is read stays as it is when it is written and read again. -/
  settled : parseHosts (",".intercalate (parseHosts raw)) = parseHosts raw

/-- **A list of hosts is read as it is meant**, whatever text it is. -/
theorem parseHosts_asMeant (raw : String) : ReadAsMeant raw := by
  obtain ⟨items, hraw, hlists⟩ := exists_lists_parseHosts raw
  constructor
  case exact =>
    intro hosts
    constructor
    · rintro rfl
      exact ⟨items, hraw, hlists⟩
    · rintro ⟨written, rfl, h⟩
      exact parseHosts_intercalate h
  case hosts => exact hlists.isHost
  case joined =>
    intro more
    have hcut : (raw ++ "," ++ more).toList = raw.toList ++ ',' :: more.toList := by
      rw [String.toList_append, String.toList_append, List.append_assoc]
      rfl
    rw [parseHosts_eq_held, hcut, List.splitOn_append_cons_self, held_append, ← parseHosts_eq_held,
      ← parseHosts_eq_held]
  case settled => exact parseHosts_intercalate (lists_self hlists.isHost)

/-- White space of other scripts is padding too, and what is inside a host stays. -/
theorem parseHosts_asMeant_padded :
    parseHosts ",\u3000one\u0085, ,\ttwo halves" = ["one", "two halves"] ∧ IsHost "two halves" := by
  have hone : IsHost "one" := by decide
  have htwo : IsHost "two halves" := by decide
  have hlists : Lists ["", "\u3000" ++ "one" ++ "\u0085", " ", "\t" ++ "two halves" ++ ""]
      ["one", "two halves"] :=
    .blank (by decide) (.host (by decide) hone (by decide)
      (.blank (by decide) (.host (by decide) htwo (by decide) .nil)))
  have hread := ((parseHosts_asMeant ",\u3000one\u0085, ,\ttwo halves").exact _).mpr ⟨_, rfl, hlists⟩
  exact ⟨hread, (parseHosts_asMeant _).hosts _ (by rw [hread]; decide)⟩

end BorderSync.Settings
