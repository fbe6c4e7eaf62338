/-
# BorderSync.Proofs.Border.Upkeep -- one update after the other, on a server that may fail

An update of an upstream is attempted again and again. Any request of an attempt may fail, and the server
may have carried the failing request out all the same. What happens to the entries on the way is told of the
shelf alone: the wanted entries that were there stay, missing addresses come, and others go.
-/
import BorderSync.Proofs.Border.Server
import BorderSync.Proofs.Machine

namespace BorderSync.Border

/-- **Aim**: the entries that an upstream is to have. -/
structure Aim where
  client : Client
  context : Context
  upstream : String
  wanted : List Entry

/-- One update of the upstream. -/
def Aim.attempt (aim : Aim) : Call (Except Error Changes) :=
  aim.client.update aim.context aim.upstream aim.wanted

/-- The wanted addresses. -/
def Aim.addresses (aim : Aim) : List String :=
  aim.wanted.map Entry.server

/-- The entry has a wanted address. -/
def Aim.wants (aim : Aim) (e : Int × String) : Bool :=
  aim.addresses.contains e.2

/-- What a request adds to a shelf. -/
def Shelf.gained (context : Context) (q : Request) (id : Int) : Shelf :=
  match q.method with
  | .post =>
    match q.body.bind (Entry.decode? context) with
    | some e => [(id, e.server)]
    | none => []
  | _ => []

/-- **Upkeep**: what a server holds, and how far the latest attempt to bring it in line has come. -/
structure Upkeep where
  shelf : Shelf
  /-- What is left of the latest attempt, if there was one. -/
  call : Option (Call (Except Error Changes)) := none
  /-- A request of the latest attempt has failed. -/
  failed : Bool := false
  /-- Number of requests of the latest attempt. -/
  asked : Nat := 0

namespace Upkeep

/-- **Move**: an attempt begins, or its next request is answered. -/
inductive Move where
  | begin
  /-- The request is granted; an entry that is posted gets this id. -/
  | grant (r : Response) (id : Int)
  /-- The request fails, although the server may have carried it out; then an entry that is posted has got
  this id. -/
  | fail (a : Answer) (carriedOut : Option Int)
  deriving Repr

/-- The answer is a failure for whoever has asked. -/
def fails (context : Context) (q : Request) : Answer → Bool
  | .error _ => true
  | .ok r => !r.isSuccess || (q.method == .get && (Entry.decodeList? context r.body).isNone)

/-- The request to be answered next. -/
def request? (s : Upkeep) : Option Request :=
  match s.call with
  | some (.ask q _) => some q
  | _ => none

/-- What is left once an answer has come. -/
def answered (s : Upkeep) (a : Answer) : Option (Call (Except Error Changes)) :=
  match s.call with
  | some (.ask _ next) => some (next a)
  | other => other

/-- What the server holds once a request is carried out. -/
def served (context : Context) (s : Upkeep) (id : Int) : Shelf :=
  match s.request? with
  | some q => s.shelf.serve context q id
  | none => s.shelf

/-- The state after a move. -/
def next (aim : Aim) (s : Upkeep) : Move → Upkeep
  | .begin => { s with call := some aim.attempt, failed := false, asked := 0 }
  | .grant r id =>
    { s with
      shelf := s.served aim.context id
      call := s.answered (.ok r)
      asked := s.asked + 1 }
  | .fail a carriedOut =>
    { shelf := match carriedOut with
        | some id => s.served aim.context id
        | none => s.shelf
      call := s.answered a
      failed := true
      asked := s.asked + 1 }

/-- An attempt begins when there is none under way, only open requests are answered, and entries get ids of
their own. -/
def allows (aim : Aim) (s : Upkeep) : Move → Bool
  | .begin => s.request?.isNone
  | .grant r id =>
    match s.request? with
    | some q => s.shelf.grants aim.context q id (.ok r)
    | none => false
  | .fail a carriedOut =>
    match s.request? with
    | some q =>
      fails aim.context q a &&
        match carriedOut with
        | some id => q.method != .post || !s.shelf.ids.contains id
        | none => true
    | none => false

/-- The entries that a move adds. -/
def gains (aim : Aim) (s : Upkeep) : Move → List (Int × String)
  | .begin => []
  | .grant _ id => s.request?.elim [] fun q => Shelf.gained aim.context q id
  | .fail _ carriedOut =>
    match s.request?, carriedOut with
    | some q, some id => Shelf.gained aim.context q id
    | _, _ => []

/-- **The machine of repeated attempts**: its legal runs are all sequences of attempts, with every way in
which their requests may end. -/
def machine (aim : Aim) : Machine Upkeep Move :=
  ⟨allows aim, next aim⟩

/-- The entries that a run adds, in order. -/
def added (aim : Aim) (s : Upkeep) (ms : List Move) : Shelf :=
  (machine aim).log (gains aim) s ms

end Upkeep

/-! ## What is on the shelf -/

/-- **Holds**: a shelf has all the wanted entries that it had at first and those that were added, and of the
others some of those that it had at first. -/
structure Shelf.Holds (shelf : Shelf) (aim : Aim) (original added : Shelf) : Prop where
  ids_once : shelf.ids.Nodup
  wanted : shelf.filter aim.wants = original.filter aim.wants ++ added
  unwanted : (shelf.filter fun e => !aim.wants e).Sublist (original.filter fun e => !aim.wants e)
  added_once : added.addresses.Nodup
  added_missing : ∀ a ∈ added.addresses, a ∈ aim.addresses ∧ a ∉ original.addresses

namespace Shelf.Holds

variable {aim : Aim} {shelf original added : Shelf}

theorem refl (h : original.ids.Nodup) : original.Holds aim original [] where
  ids_once := h
  wanted := (List.append_nil _).symm
  unwanted := List.Sublist.refl _
  added_once := List.nodup_nil
  added_missing := by simp [Shelf.addresses]

/-- A wanted address that the shelf had at first, or that was added, is there. -/
theorem mem_addresses (h : shelf.Holds aim original added) {a : String} (ha : a ∈ aim.addresses)
    (hbefore : a ∈ original.addresses ∨ a ∈ added.addresses) : a ∈ shelf.addresses := by
  have hmem : a ∈ (shelf.filter aim.wants).map Prod.snd := by
    rw [h.wanted, List.map_append, List.mem_append]
    refine hbefore.imp (fun horiginal => ?_) id
    obtain ⟨e, he, rfl⟩ := List.mem_map.mp horiginal
    exact List.mem_map_of_mem (List.mem_filter.mpr ⟨he, by simpa [Aim.wants] using ha⟩)
  obtain ⟨e, he, rfl⟩ := List.mem_map.mp hmem
  exact List.mem_map_of_mem (List.mem_filter.mp he).1

/-- A wanted address that is missing is added. -/
theorem append (h : shelf.Holds aim original added) {id : Int} {a : String} (hid : id ∉ shelf.ids)
    (ha : a ∈ aim.addresses) (hmissing : a ∉ shelf.addresses) :
    Holds (shelf ++ [(id, a)]) aim original (added ++ [(id, a)]) := by
  have hwants : aim.wants (id, a) = true := by simpa [Aim.wants] using ha
  refine ⟨nodup_append h.ids_once hid a, ?_, ?_, ?_, ?_⟩
  · rw [List.filter_append, h.wanted, List.append_assoc]
    simp [hwants]
  · rw [List.filter_append]
    simpa [hwants] using h.unwanted
  · show ((added ++ [(id, a)]).map Prod.snd).Nodup
    rw [List.map_append, List.nodup_append]
    refine ⟨h.added_once, by simp, fun b hb c hc => ?_⟩
    rintro rfl
    have hba : b = a := by simpa using hc
    exact hmissing (h.mem_addresses ha (.inr (hba ▸ hb)))
  · intro b hb
    rw [Shelf.addresses, List.map_append, List.mem_append] at hb
    rcases hb with hb | hb
    · exact h.added_missing b hb
    · have hba : b = a := by simpa using hb
      exact hba ▸ ⟨ha, fun horiginal => hmissing (h.mem_addresses ha (.inl horiginal))⟩

/-- An entry whose address is not wanted is deleted. -/
theorem delete (h : shelf.Holds aim original added) {d : Int × String} (hd : d ∈ shelf)
    (hunwanted : aim.wants d = false) : Holds (shelf.filter fun e => e.1 != d.1) aim original added := by
  have hsublist : (shelf.filter fun e => e.1 != d.1).Sublist shelf := List.filter_sublist
  refine ⟨h.ids_once.sublist (hsublist.map Prod.fst), ?_, ?_, h.added_once, h.added_missing⟩
  · rw [← h.wanted, List.filter_filter]
    refine List.filter_congr ?_
    intro e he
    cases hwants : aim.wants e with
    | false => rfl
    | true =>
      -- an entry with the id of the one that is deleted is that one
      have hne : e.1 ≠ d.1 := fun hid => by
        have heq : e = d := List.inj_on_of_nodup_map h.ids_once he hd hid
        rw [heq, hunwanted] at hwants
        exact Bool.false_ne_true hwants
      simpa using hne
  · exact (hsublist.filter _).trans h.unwanted

/-- Whatever is on the shelf was there at first or was added. -/
theorem mem_or_mem (h : shelf.Holds aim original added) {e : Int × String} (he : e ∈ shelf) :
    e ∈ original ∨ e ∈ added := by
  cases hwants : aim.wants e with
  | true =>
    have hmem : e ∈ shelf.filter aim.wants := List.mem_filter.mpr ⟨he, hwants⟩
    rw [h.wanted, List.mem_append] at hmem
    exact hmem.imp (fun horiginal => (List.mem_filter.mp horiginal).1) id
  | false =>
    have hmem : e ∈ shelf.filter fun e => !aim.wants e := List.mem_filter.mpr ⟨he, by simp [hwants]⟩
    exact .inl (List.mem_filter.mp (h.unwanted.subset hmem)).1

end Shelf.Holds

end BorderSync.Border
