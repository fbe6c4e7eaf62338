/-
# BorderSync.Proofs.Border.Difference -- what an update adds and deletes

An update compares addresses only. So what it has to do to a shelf does not depend on the other fields of
the wanted entries: with all of them as with the addresses alone, the same addresses are added, each once
and none that is listed, and the same entries are deleted.
-/
import BorderSync.Proofs.Border.Update

namespace BorderSync.Border

/-- An entry without anything but its address. -/
def Entry.bare (e : Entry) : Entry :=
  { server := e.server }

namespace Reconcile

theorem firstOfEach_bare (seen : List String) (es : List Entry) :
    firstOfEach seen (es.map Entry.bare) = (firstOfEach seen es).map Entry.bare := by
  induction es generalizing seen with
  | nil => rfl
  | cons e es ih =>
    rw [List.map_cons, firstOfEach, firstOfEach, show e.bare.server = e.server from rfl]
    split
    · exact ih seen
    · rw [List.map_cons, ih]

theorem additions_bare (listed wanted : List Entry) :
    additions listed (wanted.map Entry.bare) = (additions listed wanted).map Entry.bare := by
  unfold additions
  rw [List.filter_map, show (fun w : Entry => !listed.any fun l => l.server == w.server) ∘ Entry.bare
    = fun w => !listed.any fun l => l.server == w.server from rfl, firstOfEach_bare, List.map_map,
    List.map_map]
  rfl

theorem removals_bare (listed wanted : List Entry) :
    removals listed (wanted.map Entry.bare) = removals listed wanted := by
  unfold removals
  simp only [List.any_map]
  rfl

/-- An added entry is a wanted one without its id, and its address is not listed. -/
theorem of_mem_additions {listed wanted : List Entry} {p : Entry} (h : p ∈ additions listed wanted) :
    (∃ w ∈ wanted, p = withoutId w) ∧ ∀ l ∈ listed, l.server ≠ p.server := by
  obtain ⟨w, hw, rfl⟩ := List.mem_map.mp h
  obtain ⟨hwanted, hlisted⟩ := List.mem_filter.mp (mem_of_mem_firstOfEach hw)
  exact ⟨⟨w, hwanted, rfl⟩, by simpa [withoutId] using hlisted⟩

/-- Addresses that were seen are not kept, and no address is kept twice. -/
theorem nodup_firstOfEach (seen : List String) (es : List Entry) :
    ((firstOfEach seen es).map Entry.server).Nodup ∧
      ∀ e ∈ firstOfEach seen es, e.server ∉ seen := by
  induction es generalizing seen with
  | nil => exact ⟨List.nodup_nil, by simp [firstOfEach]⟩
  | cons e es ih =>
    unfold firstOfEach
    split
    · exact ih seen
    · rename_i hseen
      obtain ⟨hnodup, hnew⟩ := ih (e.server :: seen)
      refine ⟨List.nodup_cons.mpr ⟨?_, hnodup⟩, ?_⟩
      · intro hmem
        obtain ⟨f, hf, heq⟩ := List.mem_map.mp hmem
        exact hnew f hf (heq ▸ List.mem_cons_self)
      · intro f hf
        rcases List.mem_cons.mp hf with rfl | hf
        · simpa using hseen
        · exact fun hmem => hnew f hf (List.mem_cons_of_mem _ hmem)

theorem nodup_additions (listed wanted : List Entry) :
    ((additions listed wanted).map Entry.server).Nodup := by
  unfold additions
  rw [List.map_map]
  exact (nodup_firstOfEach [] _).1

theorem length_firstOfEach_le (seen : List String) (es : List Entry) :
    (firstOfEach seen es).length ≤ es.length := by
  induction es generalizing seen with
  | nil => exact Nat.le_refl _
  | cons e es ih =>
    unfold firstOfEach
    split
    · exact Nat.le_succ_of_le (ih seen)
    · exact Nat.succ_le_succ (ih _)

theorem length_additions_le (listed wanted : List Entry) :
    (additions listed wanted).length ≤ wanted.length := by
  unfold additions
  rw [List.length_map]
  exact Nat.le_trans (length_firstOfEach_le [] _) (List.length_filter_le _ _)

/-- What is listed is what the shelf holds. -/
theorem Shows.mem_addresses {listed : List Entry} {shelf : Shelf} (h : Shows listed shelf) {a : String} :
    a ∈ shelf.addresses ↔ ∃ l ∈ listed, l.server = a := by
  have hservers : listed.map Entry.server = shelf.addresses := by
    have hsnd := congrArg (List.map Prod.snd) (show _ = _ from h)
    rw [List.map_map, List.map_map] at hsnd
    exact hsnd
  rw [← hservers, List.mem_map]

/-- **After the list**, posts and deletions make up what is wanted, whatever entries are wanted. -/
theorem owes_of_listed {listed : List Entry} {shelf : Shelf} (h : Shows listed shelf)
    (hids : shelf.ids.Nodup) (wanted : List Entry) :
    shelf.Owes (wanted.map Entry.server) ((additions listed wanted).map Entry.bare)
      (removals listed wanted) := by
  have howes := owes_of_shows h hids (wanted.map Entry.server)
  have hbare : ((wanted.map Entry.server).map fun a => ({ server := a } : Entry)) = wanted.map Entry.bare := by
    rw [List.map_map]
    rfl
  rwa [hbare, additions_bare, removals_bare] at howes

end Reconcile

end BorderSync.Border
