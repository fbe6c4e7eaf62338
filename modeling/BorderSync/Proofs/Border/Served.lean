/-
# BorderSync.Proofs.Border.Served -- conversations with a server that grants everything

A server that grants every request answers a list with the entries that it holds, puts what is posted at the
end under a number of its own, and takes out what is deleted. How a conversation with such a server goes is a
relation: the numbers that it gives are its own choice, and so is whatever else its answers say.
-/
import BorderSync.Proofs.Border.Agenda
import Mathlib.Data.Fintype.EquivFin

namespace BorderSync.Border

open Endpoint (Location)

/-! ## Lists as a server writes them -/

namespace Entry

open Json (Value)

theorem ofJson?_toJson (context : Context) {e : Entry} (h : e.Fits) :
    ofJson? context (e.toJson context) = some (e.shown context) := by
  have hdecode := decode?_encode context h
  unfold decode? encode at hdecode
  rwa [(wellWritten_toJson context e).read?_render] at hdecode

theorem listOfJson?_toJson (context : Context) {es : List Entry} (h : ∀ e ∈ es, e.Fits) :
    listOfJson? context (.array (es.map (toJson context))) = some (es.map (shown context)) := by
  show (es.map (toJson context)).mapM (ofJson? context) = _
  induction es with
  | nil => rfl
  | cons e es ih =>
    rw [List.map_cons, List.mapM_cons, ofJson?_toJson context (h e List.mem_cons_self), ih]
    · rfl
    · intro e' he'
      exact h e' (List.mem_cons_of_mem e he')

/-- **A list that is written is read as it.** -/
theorem decodeList?_render (context : Context) {es : List Entry} (h : ∀ e ∈ es, e.Fits) :
    decodeList? context (Value.array (es.map (toJson context))).render = some (es.map (shown context)) := by
  have hwritten : (Value.array (es.map (toJson context))).WellWritten := by
    refine .array ?_
    intro v hv
    obtain ⟨e, -, rfl⟩ := List.mem_map.mp hv
    exact wellWritten_toJson context e
  unfold decodeList?
  rw [hwritten.read?_render, Option.bind_some, listOfJson?_toJson context h]

end Entry

/-- An answer that lists the entries of a shelf. -/
def Shelf.shown (context : Context) (shelf : Shelf) : Response :=
  ⟨200, (Json.Value.array ((shelf.map fun e => { id := some e.1, server := e.2 }).map
    (Entry.toJson context))).render⟩

/-- Entries whose numbers fit 64 bits can be listed. -/
theorem Shelf.grants_shown (context : Context) {shelf : Shelf} (h : ∀ i ∈ shelf.ids, Json.FitsInt64 i)
    {q : Request} (hq : q.method = .get) (id : Int) :
    shelf.grants context q id (.ok (shelf.shown context)) = true := by
  have hfits : ∀ e ∈ shelf.map fun e : Int × String => ({ id := some e.1, server := e.2 } : Entry), e.Fits := by
    intro e he
    obtain ⟨x, hx, rfl⟩ := List.mem_map.mp he
    exact ⟨by simpa using h x.1 (List.mem_map_of_mem hx), by simp, by simp⟩
  have hread := Entry.decodeList?_render context hfits
  simp only [grants, hq, isListedBy, shown, Bool.and_eq_true]
  refine ⟨rfl, ?_⟩
  rw [hread, beq_iff_eq, Option.map_some, List.map_map, List.map_map]
  refine congrArg some (List.map_congr_left ?_)
  intro e _
  cases context <;> rfl

/-- A list that is granted shows the shelf. -/
theorem listing_of_grants {context : Context} {shelf : Shelf} {q : Request} {id : Int} {a : Answer}
    (hq : q.method = .get) (ha : shelf.grants context q id a = true) :
    ∃ listed, listing context a = .ok listed ∧ Reconcile.Shows listed shelf := by
  obtain ⟨r, rfl, hr⟩ := Shelf.response_of_grants ha
  simp only [Shelf.grants, hq, Bool.and_eq_true] at ha
  obtain ⟨listed, hread, hshows⟩ := Shelf.shows_of_isListedBy ha.2
  exact ⟨listed, by simp [listing, hr, hread], hshows⟩

/-- What is granted is no failure. -/
theorem failure?_of_grants {context : Context} {shelf : Shelf} {q : Request} {id : Int} {a : Answer}
    (ha : shelf.grants context q id a = true) : failure? a = none := by
  obtain ⟨r, rfl, hr⟩ := Shelf.response_of_grants ha
  exact if_pos hr

/-! ## Conversations -/

/-- **Served**: a conversation with a server that grants everything, what it asks, and its result. The shelf
is the one of its upstream, before and afterwards. -/
inductive Served {ρ : Type} (context : Context) : Shelf → Call ρ → List Request → Shelf → ρ → Prop
  | done (shelf : Shelf) (r : ρ) : Served context shelf (.done r) [] shelf r
  | ask {shelf shelf' : Shelf} {q : Request} {next : Answer → Call ρ} {qs : List Request} {r : ρ} (a : Answer)
    (id : Int) (hgranted : shelf.grants context q id a = true)
    (hrest : Served context (shelf.serve context q id) (next a) qs shelf' r) :
    Served context shelf (.ask q next) (q :: qs) shelf' r

section InTurn

variable {σ : Type} {context : Context} {shelf shelf' : Shelf} {q : Request} {qs asked : List Request}
  {f : Unit → Call (Except Error σ)} {r : Except Error σ}

/-- The first of several requests is granted, and the others follow. -/
theorem Served.next (h : Served context shelf ((Call.inTurn (q :: qs)).onSuccess f) asked shelf' r) :
    ∃ a id rest, shelf.grants context q id a = true ∧ asked = q :: rest ∧
      Served context (shelf.serve context q id) ((Call.inTurn qs).onSuccess f) rest shelf' r := by
  rw [Call.inTurn_cons] at h
  cases h with
  | ask a id hgranted hrest =>
    simp only [failure?_of_grants hgranted] at hrest
    exact ⟨a, id, _, hgranted, rfl, hrest⟩

/-- Requests that are granted one after the other are served. -/
theorem Served.cons {a : Answer} {id : Int} (hgranted : shelf.grants context q id a = true)
    (hrest : Served context (shelf.serve context q id) ((Call.inTurn qs).onSuccess f) asked shelf' r) :
    Served context shelf ((Call.inTurn (q :: qs)).onSuccess f) (q :: asked) shelf' r := by
  rw [Call.inTurn_cons]
  refine .ask a id hgranted ?_
  simp only [failure?_of_grants hgranted]
  exact hrest

end InTurn

/-! ## Posts and deletions -/

section Writes

variable {σ : Type} {context : Context} {l : Location} {shelf shelf' : Shelf} {asked : List Request}
  {result : σ} {r : Except Error σ}

/-- Deletions take out the entries with their numbers. -/
theorem Served.deletions {ids : List Int} (h : Served context shelf
      ((Call.inTurn (ids.map (Request.deleteAt l))).onSuccess fun _ => .done (.ok result)) asked shelf' r) :
    asked = ids.map (Request.deleteAt l) ∧ r = .ok result ∧
      shelf' = shelf.filter fun e => !ids.contains e.1 := by
  induction ids generalizing shelf asked with
  | nil =>
    cases h with
    | done => exact ⟨rfl, rfl, by simp⟩
  | cons i ids ih =>
    obtain ⟨a, id, rest, -, rfl, hrest⟩ := h.next
    have hserve : shelf.serve context (Request.deleteAt l i) id = shelf.filter fun e => e.1 != i :=
      Shelf.serve_delete rfl (by simp [Request.deleteAt]) context shelf id
    rw [hserve] at hrest
    obtain ⟨rfl, hresult, hshelf⟩ := ih hrest
    refine ⟨rfl, hresult, ?_⟩
    rw [hshelf, List.filter_filter]
    refine List.filter_congr ?_
    intro e _
    rw [List.contains_cons, Bool.not_or, Bool.and_comm]
    rfl

/-- **Posts put new entries at the end, and deletions take out the entries with their numbers.** -/
theorem Served.writes {posts : List Entry} {ids : List Int} (hfits : ∀ p ∈ posts, p.Fits)
    (hids : shelf.ids.Nodup) (h : Served context shelf ((Call.inTurn (posts.map (Request.postAt context l)
      ++ ids.map (Request.deleteAt l))).onSuccess fun _ => .done (.ok result)) asked shelf' r) :
    asked = posts.map (Request.postAt context l) ++ ids.map (Request.deleteAt l) ∧ r = .ok result ∧
      ∃ news : Shelf, news.addresses = posts.map Entry.server ∧ (shelf ++ news : Shelf).ids.Nodup ∧
        shelf' = (shelf ++ news).filter fun e => !ids.contains e.1 := by
  induction posts generalizing shelf asked with
  | nil =>
    obtain ⟨hasked, hresult, hshelf⟩ := h.deletions
    exact ⟨hasked, hresult, [], rfl, by simpa using hids, by simpa using hshelf⟩
  | cons p posts ih =>
    obtain ⟨a, id, rest, hgranted, rfl, hrest⟩ := h.next
    have hserve : shelf.serve context (Request.postAt context l p) id = shelf ++ [(id, p.server)] :=
      Shelf.serve_post rfl rfl (hfits p List.mem_cons_self) shelf id
    have hfresh : id ∉ shelf.ids := Shelf.fresh_of_grants rfl hgranted
    rw [hserve] at hrest
    obtain ⟨rfl, hresult, news, hnews, hnodup, hshelf⟩ :=
      ih (fun p' hp' => hfits p' (List.mem_cons_of_mem p hp')) (Shelf.nodup_append hids hfresh p.server) hrest
    rw [List.append_assoc] at hnodup hshelf
    exact ⟨rfl, hresult, (id, p.server) :: news, congrArg (p.server :: ·) hnews, hnodup, hshelf⟩

/-- Posts and deletions are served whatever the shelf holds. -/
theorem exists_served_writes (context : Context) (shelf : Shelf) {qs : List Request}
    (hqs : ∀ q ∈ qs, q.method ≠ .get) (result : σ) : ∃ shelf', Served context shelf
      ((Call.inTurn qs).onSuccess fun _ => .done (.ok result)) qs shelf' (.ok result) := by
  induction qs generalizing shelf with
  | nil => exact ⟨shelf, .done shelf _⟩
  | cons q qs ih =>
    -- there is always a number that no entry has
    obtain ⟨id, hid⟩ := Infinite.exists_notMem_finset shelf.ids.toFinset
    have hgranted : shelf.grants context q id (.ok ⟨200, []⟩) = true := by
      have hget := hqs q List.mem_cons_self
      unfold Shelf.grants
      cases hmethod : q.method with
      | get => exact absurd hmethod hget
      | post => simpa [Response.isSuccess] using hid
      | delete => rfl
    obtain ⟨shelf', hrest⟩ := ih (shelf.serve context q id) fun q' hq' => hqs q' (List.mem_cons_of_mem q hq')
    exact ⟨shelf', .cons hgranted hrest⟩

end Writes

end BorderSync.Border
