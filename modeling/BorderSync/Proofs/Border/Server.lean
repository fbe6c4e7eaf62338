/-
# BorderSync.Proofs.Border.Server -- a border server on which every request succeeds

A border server keeps entries with an id for every upstream. A list shows them all, a posted entry is put
at their end under an id that none of them has, and a deletion takes out the one whose number ends the
place of the request. While an update works through what it has to post and to delete, these two
together with what the server holds make up the wanted addresses; once nothing is left the server holds
exactly them.
-/
import BorderSync.Border.Client
import BorderSync.Proofs.Border.Entry
import BorderSync.Proofs.Border.Place
import Mathlib.Data.List.Nodup

namespace BorderSync.Border

open Endpoint (Location)

/-- **Shelf**: the entries of one upstream on a border server, by id and address. -/
abbrev Shelf := List (Int × String)

/-- The place of the upstream that a request is about. -/
def Request.place (q : Request) : Location :=
  match q.method with
  | .delete => { q.location with segments := q.location.segments.dropLast }
  | _ => q.location

/-- The request changes what the server holds. -/
def Request.writes (q : Request) : Bool :=
  q.method != .get

namespace Shelf

/-- The addresses of a shelf. -/
def addresses (shelf : Shelf) : List String :=
  shelf.map Prod.snd

/-- The ids of a shelf. -/
def ids (shelf : Shelf) : List Int :=
  shelf.map Prod.fst

/-- The octets list the entries of a shelf, in order. -/
def isListedBy (context : Context) (shelf : Shelf) (body : List UInt8) : Bool :=
  (Entry.decodeList? context body).map (List.map fun e => (e.id, e.server))
    == some (shelf.map fun e => (some e.1, e.2))

/-- The answer grants a request, and an entry that is posted gets an id of its own. -/
def grants (context : Context) (shelf : Shelf) (q : Request) (id : Int) : Answer → Bool
  | .error _ => false
  | .ok r =>
    r.isSuccess &&
      match q.method with
      | .get => shelf.isListedBy context r.body
      | .post => !shelf.ids.contains id
      | .delete => true

/-- **What a request leaves on a shelf**; a new entry gets the given id. -/
def serve (context : Context) (shelf : Shelf) (q : Request) (id : Int) : Shelf :=
  match q.method with
  | .get => shelf
  | .post =>
    match q.body.bind (Entry.decode? context) with
    | some e => shelf ++ [(id, e.server)]
    | none => shelf
  | .delete => shelf.filter fun e => q.location.segments.getLast? != some (toString e.1)

/-- Only a response grants a request. -/
theorem response_of_grants {context : Context} {shelf : Shelf} {q : Request} {id : Int} {a : Answer}
    (h : shelf.grants context q id a = true) : ∃ r, a = .ok r ∧ r.isSuccess = true := by
  cases a with
  | error fault => exact absurd h (by simp [grants])
  | ok r => exact ⟨r, rfl, (Bool.and_eq_true_iff.mp h).1⟩

/-- A list leaves everything as it is. -/
theorem serve_of_not_writes {context : Context} {shelf : Shelf} {q : Request} {id : Int}
    (h : q.writes = false) : shelf.serve context q id = shelf := by
  have hget : q.method = .get := by simpa [Request.writes] using h
  unfold serve
  rw [hget]

/-- An entry that a granted post adds gets an id of its own. -/
theorem fresh_of_grants {context : Context} {shelf : Shelf} {q : Request} {id : Int} {a : Answer}
    (hq : q.method = .post) (ha : shelf.grants context q id a = true) : id ∉ shelf.ids := by
  obtain ⟨r, rfl, -⟩ := response_of_grants ha
  simp only [grants, hq, Bool.and_eq_true, Bool.not_eq_true'] at ha
  simpa using ha.2

/-- A new entry with an id of its own keeps ids apart. -/
theorem nodup_append {shelf : Shelf} {id : Int} (h : shelf.ids.Nodup) (hfresh : id ∉ shelf.ids)
    (address : String) : (shelf ++ [(id, address)] : Shelf).ids.Nodup := by
  unfold ids
  rw [List.map_append, List.map_cons, List.map_nil, List.nodup_append]
  refine ⟨h, List.pairwise_singleton _ _, fun i hi j hj => ?_⟩
  rintro rfl
  have hji : i = id := List.mem_singleton.mp hj
  rw [hji] at hi
  exact hfresh hi

/-- A request that is granted keeps ids apart. -/
theorem nodup_serve {context : Context} {shelf : Shelf} {q : Request} {id : Int} {a : Answer}
    (h : shelf.ids.Nodup) (ha : shelf.grants context q id a = true) :
    (shelf.serve context q id).ids.Nodup := by
  unfold serve
  split
  · exact h
  · rename_i hpost
    split
    · exact nodup_append h (fresh_of_grants hpost ha) _
    · exact h
  · exact h.sublist (List.filter_sublist.map Prod.fst)

/-- A posted entry is put at the end. -/
theorem serve_post {context : Context} {q : Request} {p : Entry} (hq : q.method = .post)
    (hbody : q.body = some (p.encode context)) (hp : p.Fits) (shelf : Shelf) (id : Int) :
    shelf.serve context q id = shelf ++ [(id, p.server)] := by
  unfold serve
  rw [hq, hbody, Option.bind_some, Entry.decode?_encode context hp]
  simp only [Entry.server_shown]

/-- A deletion takes out the entry whose number ends the place of the request. -/
theorem serve_delete {q : Request} {i : Int} (hq : q.method = .delete)
    (hlast : q.location.segments.getLast? = some (toString i)) (context : Context) (shelf : Shelf)
    (id : Int) : shelf.serve context q id = shelf.filter fun e => e.1 != i := by
  unfold serve
  rw [hq, hlast]
  refine List.filter_congr ?_
  intro e _
  rw [Bool.eq_iff_iff, bne_iff_ne, bne_iff_ne, ne_eq, Option.some.injEq, ne_eq, not_iff_not]
  exact ⟨fun heq => (Int.repr_injective heq).symm, fun heq => by rw [heq]⟩

/-! ## Towards the wanted addresses -/

/-- **Owes**: the posts and deletions that are left make a shelf hold exactly the wanted addresses. -/
structure Owes (shelf : Shelf) (wanted : List String) (posts : List Entry) (deletions : Shelf) :
    Prop where
  ids_once : shelf.ids.Nodup
  /-- Exactly the entries whose address is not wanted are to be deleted. -/
  unwanted : deletions = shelf.filter fun e => !wanted.contains e.2
  posts_wanted : ∀ p ∈ posts, ∃ a ∈ wanted, p = { server := a }
  /-- A wanted address is there, or is to be posted. -/
  covered : ∀ a ∈ wanted, a ∈ shelf.addresses ∨ ({ server := a } : Entry) ∈ posts

namespace Owes

variable {shelf : Shelf} {wanted : List String} {posts : List Entry} {deletions : Shelf}

/-- Nothing is left: exactly the wanted addresses are there. -/
theorem addresses_iff (h : Owes shelf wanted [] []) (a : String) :
    a ∈ shelf.addresses ↔ a ∈ wanted := by
  constructor
  · intro ha
    obtain ⟨e, he, rfl⟩ := List.mem_map.mp ha
    have hnone := List.filter_eq_nil_iff.mp h.unwanted.symm e he
    simpa using hnone
  · intro ha
    exact (h.covered a ha).resolve_right List.not_mem_nil

/-- The first post is carried out. -/
theorem append {address : String} (h : Owes shelf wanted ({ server := address } :: posts) deletions)
    {id : Int} (hfresh : id ∉ shelf.ids) : Owes (shelf ++ [(id, address)]) wanted posts deletions := by
  have hwanted : address ∈ wanted := by
    obtain ⟨b, hb, heq⟩ := h.posts_wanted _ List.mem_cons_self
    rwa [show address = b from congrArg Entry.server heq]
  refine ⟨nodup_append h.ids_once hfresh address, ?_, ?_, ?_⟩
  · -- what is posted is wanted, and no more has to be deleted
    rw [List.filter_append, h.unwanted]
    simp [hwanted]
  · intro p hp
    exact h.posts_wanted p (List.mem_cons_of_mem _ hp)
  · intro b hb
    rw [addresses, List.map_append]
    rcases h.covered b hb with hthere | hpost
    · exact .inl (List.mem_append_left _ hthere)
    · rcases List.mem_cons.mp hpost with heq | hpost
      · have hba : b = address := congrArg Entry.server heq
        exact .inl (List.mem_append_right _ (by simp [hba]))
      · exact .inr hpost

/-- A post is granted. -/
theorem post {p : Entry} (h : Owes shelf wanted (p :: posts) deletions) {context : Context}
    {q : Request} (hq : q.method = .post) (hbody : q.body = some (p.encode context)) {id : Int}
    {a : Answer} (ha : shelf.grants context q id a = true) :
    Owes (shelf.serve context q id) wanted posts deletions := by
  obtain ⟨address, -, rfl⟩ := h.posts_wanted p List.mem_cons_self
  rw [serve_post hq hbody ⟨by simp, by simp, by simp⟩]
  exact h.append (fresh_of_grants hq ha)

/-- A deletion is granted. -/
theorem delete {d : Int × String} (h : Owes shelf wanted [] (d :: deletions)) {context : Context}
    {q : Request} (hq : q.method = .delete)
    (hlast : q.location.segments.getLast? = some (toString d.1)) (id : Int) :
    Owes (shelf.serve context q id) wanted [] deletions := by
  have hserve := serve_delete hq hlast context shelf id
  have hunwanted := h.unwanted
  have hd : d ∈ shelf ∧ d.2 ∉ wanted := by
    have hmem : d ∈ shelf.filter fun e => !wanted.contains e.2 := hunwanted ▸ List.mem_cons_self
    simpa using hmem
  -- an entry with the id of the one that is deleted is that one
  have hsame : ∀ e ∈ shelf, e.1 = d.1 → e = d := fun e he hid =>
    List.inj_on_of_nodup_map h.ids_once he hd.1 hid
  have hrest : ∀ e ∈ deletions, (e.1 != d.1) = true := by
    intro e he
    have honce : (Shelf.ids (d :: deletions)).Nodup :=
      h.ids_once.sublist ((hunwanted ▸ List.filter_sublist).map Prod.fst)
    rw [bne_iff_ne]
    intro heq
    have hnotin : d.1 ∉ Shelf.ids deletions := (List.nodup_cons.mp honce).1
    rw [← heq] at hnotin
    exact hnotin (List.mem_map_of_mem he)
  refine ⟨?_, ?_, by simp, ?_⟩
  · rw [hserve]
    exact h.ids_once.sublist (List.filter_sublist.map Prod.fst)
  · rw [hserve, List.filter_filter]
    simp only [Bool.and_comm]
    rw [← List.filter_filter, ← hunwanted, List.filter_cons_of_neg (by simp),
      List.filter_eq_self.mpr hrest]
  · intro a ha
    obtain ⟨e, he, rfl⟩ := List.mem_map.mp ((h.covered a ha).resolve_right List.not_mem_nil)
    have hne : e.1 ≠ d.1 := fun hid => hd.2 (hsame e he hid ▸ ha)
    rw [hserve]
    exact .inl (List.mem_map.mpr ⟨e, List.mem_filter.mpr ⟨he, by simpa using hne⟩, rfl⟩)

end Owes

end Shelf

end BorderSync.Border
