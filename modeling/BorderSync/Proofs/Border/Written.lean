/-
# BorderSync.Proofs.Border.Written -- entries are written faithfully

An upstream of either kind has entries of a type of its own: their numbers have 64 bits, and those of a
stream upstream have no fail timeout. Every such entry is read back from what is written for it, and so is
every list of them. What is written has a key for each field that is there and for no other. What an update
posts is written for one of the wanted entries, and reads as that entry without its number.
-/
import BorderSync.Proofs.Border.Exact

namespace BorderSync.Border

open Json (Value)

namespace Entry

/-! ## Entries of a kind -/

/-- **Of a kind**: the entry is one that upstreams of this kind have. -/
structure IsOf (context : Context) (e : Entry) : Prop where
  fits : e.Fits
  timeless : context = .stream → e.failTimeout = none

/-- **Fields that are there**, by their keys. -/
def has (e : Entry) : String → Bool
  | "id" => e.id.isSome
  | "server" => true
  | "weight" => e.weight.isSome
  | "max_fails" => e.maxFails.isSome
  | "fail_timeout" => e.failTimeout.isSome
  | "down" => e.down.isSome
  | _ => false

/-- **Read back**: octets that read as an entry, and have a key for each of its fields and for no other. -/
structure ReadsAs (context : Context) (octets : List UInt8) (e : Entry) : Prop where
  decoded : decode? context octets = some e
  keyed : ∃ members named, Value.read? octets = some (.object members) ∧ named? members = some named ∧
    named.map Prod.fst = (keys context).filter e.has

theorem IsOf.shown {context : Context} {e : Entry} (h : e.IsOf context) : e.shown context = e := by
  cases context with
  | http => rfl
  | stream =>
    obtain ⟨id, server, weight, maxFails, failTimeout, down⟩ := e
    obtain rfl : failTimeout = none := h.timeless rfl
    rfl

/-- Without its number an entry is of the same kind. -/
theorem IsOf.withoutId {context : Context} {e : Entry} (h : e.IsOf context) :
    IsOf context { e with id := none } :=
  ⟨⟨by simp, h.fits.weight, h.fits.maxFails⟩, h.timeless⟩

/-! ## Keys -/

/-- The members that are there have the keys of the fields that are there. -/
theorem keys_present (fields : List (String × Option Value)) :
    (present fields).map Prod.fst = (fields.filter fun f => f.2.isSome).map Prod.fst := by
  induction fields with
  | nil => rfl
  | cons f fields ih =>
    obtain ⟨key, v⟩ := f
    rw [present_cons, List.map_append, ih]
    cases v <;> rfl

theorem has_of_mem_fields {e : Entry} {f : String × Option Value} (hf : f ∈ e.fields) :
    e.has f.1 = f.2.isSome := by
  simp only [fields, List.mem_cons, List.not_mem_nil, or_false] at hf
  rcases hf with rfl | rfl | rfl | rfl | rfl | rfl <;> simp [has]

/-- **An entry has a key for each field that is there**, in writing order. -/
theorem keys_fields {context : Context} {e : Entry} (h : e.IsOf context) :
    (present e.fields).map Prod.fst = (keys context).filter e.has := by
  have hthere : e.fields.filter (fun f => f.2.isSome) = e.fields.filter fun f => e.has f.1 :=
    List.filter_congr fun f hf => (has_of_mem_fields hf).symm
  have hall : (present e.fields).map Prod.fst = (keys .http).filter e.has := by
    have hkeys : keys .http = e.fields.map Prod.fst := rfl
    rw [keys_present, hthere, hkeys, List.filter_map]
    rfl
  rw [hall]
  cases context with
  | http => rfl
  | stream =>
    have hnone : e.has "fail_timeout" = false := by simp [has, h.timeless rfl]
    simp [keys, List.filter_cons, hnone]

/-! ## Reading back -/

/-- **An entry is read back** from what is written for it. -/
theorem readsAs_encode {context : Context} {e : Entry} (h : e.IsOf context) :
    ReadsAs context (e.encode context) e where
  decoded := by rw [decode?_encode context h.fits, h.shown]
  keyed := by
    have hobject := toJson_eq context e
    rw [h.shown] at hobject
    refine ⟨_, present e.fields, ?_, named?_escape (present e.fields), keys_fields h⟩
    rw [encode, (wellWritten_toJson context e).read?_render, hobject]

/-- **A list is read back** from what is written for it. -/
theorem decodeList?_render_of_isOf {context : Context} {es : List Entry} (h : ∀ e ∈ es, e.IsOf context) :
    decodeList? context (Value.array (es.map (toJson context))).render = some es := by
  have hshown : es.map (shown context) = es :=
    (List.map_congr_left fun e he => (h e he).shown).trans (List.map_id es)
  rw [decodeList?_render context fun e he => (h e he).fits, hshown]

end Entry

/-! ## Posts -/

/-- **What an update posts** is written for wanted entries, the first of their addresses, without numbers. -/
theorem Client.post_of_mem_requests {c : Client} {context : Context} {upstream : String} {wanted : List Entry}
    {answers : List Answer} {q : Request} (hq : q ∈ (c.update context upstream wanted).requests answers)
    (hpost : q.method = .post) : ∃ w, wanted.find? (fun v => v.server == w.server) = some w ∧
      q.body = some (({ w with id := none } : Entry).encode context) := by
  cases hl : c.serversAt context upstream none with
  | error e =>
    -- without a place nothing is asked
    have hdone : c.update context upstream wanted = .done (.error e) := by
      unfold update list
      rw [hl]
      rfl
    rw [hdone, Call.requests_done] at hq
    exact absurd hq List.not_mem_nil
  | ok l =>
    have hlist : q ≠ .listAt l := by
      rintro rfl
      exact absurd hpost (by simp [Request.listAt])
    rw [update_eq hl] at hq
    cases answers with
    | nil => exact absurd (List.mem_singleton.mp hq) hlist
    | cons a answers =>
      have hrest := (List.mem_cons.mp hq).resolve_left hlist
      cases hlisting : listing context a with
      | error e =>
        simp only [hlisting, Call.requests_done] at hrest
        exact absurd hrest List.not_mem_nil
      | ok listed =>
        simp only [hlisting, Call.onSuccess_done, Call.requests_map, Call.requests_inTurn] at hrest
        rcases List.mem_append.mp (List.mem_of_mem_take hrest) with hadd | hdelete
        · obtain ⟨p, hp, rfl⟩ := List.mem_map.mp hadd
          obtain ⟨w, hw, rfl⟩ := Reconcile.first_of_mem_additions hp
          exact ⟨w, hw, rfl⟩
        · obtain ⟨d, -, rfl⟩ := List.mem_map.mp hdelete
          exact absurd hpost (by simp [Request.deleteAt])

/-- **Entries are written faithfully.** Whatever texts, numbers and fields they have, each of them is read back
from what is written for it, with its number and without, and so is the list; and whatever is answered, what an
update posts reads as one of the wanted entries without its number. -/
theorem written_faithfully {context : Context} {es : List Entry} (h : ∀ e ∈ es, e.IsOf context) :
    (∀ e ∈ es, Entry.ReadsAs context (e.encode context) e ∧
      Entry.ReadsAs context ((Reconcile.withoutId e).encode context) { e with id := none }) ∧
    Entry.decodeList? context (Value.array (es.map (Entry.toJson context))).render = some es ∧
    ∀ (c : Client) upstream answers, ∀ q ∈ (c.update context upstream es).requests answers, q.method = .post →
      ∃ w body, es.find? (fun v => v.server == w.server) = some w ∧ q.body = some body ∧
        Entry.ReadsAs context body { w with id := none } := by
  refine ⟨?_, Entry.decodeList?_render_of_isOf h, ?_⟩
  · intro e he
    exact ⟨Entry.readsAs_encode (h e he), Entry.readsAs_encode (h e he).withoutId⟩
  · intro c upstream answers q hq hpost
    obtain ⟨w, hw, hbody⟩ := Client.post_of_mem_requests hq hpost
    exact ⟨w, _, hw, hbody, Entry.readsAs_encode (h w (List.mem_of_find?_eq_some hw)).withoutId⟩

/-- An entry with the numbers that are farthest from zero, and with a text that cannot be written as it is. -/
def extreme : Entry where
  id := some 9223372036854775807
  server := "\"\\\u0007🦀"
  maxFails := some (-9223372036854775808)
  failTimeout := some ""

/-- An entry of which only the address is there, and one of which almost everything is. -/
theorem written_faithfully_extreme :
    Entry.ReadsAs .http (extreme.encode .http) extreme ∧
      Entry.ReadsAs .http ((Reconcile.withoutId extreme).encode .http) { extreme with id := none } ∧
      Entry.decodeList? .http (Value.array (([{ server := "" }, extreme] : List Entry).map
        (Entry.toJson .http))).render = some [{ server := "" }, extreme] := by
  have hofKind : ∀ e ∈ ([{ server := "" }, extreme] : List Entry), e.IsOf .http := by
    intro e he
    simp only [List.mem_cons, List.not_mem_nil, or_false] at he
    rcases he with rfl | rfl
    · exact ⟨⟨by simp, by simp, by simp⟩, by simp⟩
    · exact ⟨⟨by simp [extreme, Json.FitsInt64], by simp [extreme], by simp [extreme, Json.FitsInt64]⟩, by simp⟩
  obtain ⟨hentries, hlist, -⟩ := written_faithfully hofKind
  obtain ⟨hwith, hwithout⟩ := hentries extreme (by simp)
  exact ⟨hwith, hwithout, hlist⟩

end BorderSync.Border
