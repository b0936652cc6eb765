import Mathlib

/-!
# Maps of bounded size

A `BoundedMap κ ν capacity` is a finite map that never holds more than `capacity` keys, the
bound being a field of the structure.  `update` may fail: always when its caller says so (an
allocation that did not succeed), and when the key is new and the map is full.  A failed update
leaves the map as it was, so after any update a key holds the new value or what it held before
(`lookup_update_cases`), and other keys are not touched.
-/

namespace Akil

variable {κ ν : Type*} [DecidableEq κ] {capacity : ℕ}

/-- A finite map of at most `capacity` keys. -/
structure BoundedMap (κ ν : Type*) [DecidableEq κ] (capacity : ℕ) where
  entries : Finmap (fun _ : κ => ν)
  size_le : entries.keys.card ≤ capacity

namespace BoundedMap

/-- The map without keys. -/
def empty : BoundedMap κ ν capacity := ⟨∅, by simp⟩

/-- The value of a key. -/
def lookup (k : κ) (m : BoundedMap κ ν capacity) : Option ν := m.entries.lookup k

/-- Whether an update of `k` is refused: the caller's allocation failed, or `k` is new and the
map is full. -/
def Refuses (k : κ) (failed : Bool) (m : BoundedMap κ ν capacity) : Prop :=
  failed = true ∨ k ∉ m.entries ∧ capacity ≤ m.entries.keys.card

instance (k : κ) (failed : Bool) (m : BoundedMap κ ν capacity) : Decidable (m.Refuses k failed) :=
  inferInstanceAs (Decidable (_ ∨ _ ∧ _))

lemma card_insert_le {k : κ} {failed : Bool} {m : BoundedMap κ ν capacity}
    (h : ¬ m.Refuses k failed) (v : ν) : (m.entries.insert k v).keys.card ≤ capacity := by
  have hkeys : (m.entries.insert k v).keys = insert k m.entries.keys := by
    ext k'
    simp [Finmap.mem_keys, Finmap.mem_insert]
  rw [hkeys]
  by_cases hk : k ∈ m.entries
  · rw [Finset.insert_eq_of_mem (Finmap.mem_keys.mpr hk)]
    exact m.size_le
  · have hroom : m.entries.keys.card < capacity := by
      by_contra hfull
      exact h (Or.inr ⟨hk, not_lt.mp hfull⟩)
    exact (Finset.card_insert_le _ _).trans hroom

/-- Set `k` to `v`, unless the update is refused. -/
def update (k : κ) (v : ν) (failed : Bool) (m : BoundedMap κ ν capacity) :
    BoundedMap κ ν capacity :=
  if h : m.Refuses k failed then m else ⟨m.entries.insert k v, card_insert_le h v⟩

/-- Remove `k`. -/
def delete (k : κ) (m : BoundedMap κ ν capacity) : BoundedMap κ ν capacity :=
  ⟨m.entries.erase k, by
    rw [Finmap.keys_erase]
    exact (Finset.card_erase_le).trans m.size_le⟩

@[simp] lemma lookup_empty (k : κ) : (empty : BoundedMap κ ν capacity).lookup k = none :=
  Finmap.lookup_empty k

@[simp] lemma lookup_delete_self (k : κ) (m : BoundedMap κ ν capacity) :
    (m.delete k).lookup k = none := Finmap.lookup_erase k m.entries

lemma lookup_delete_of_ne {k k' : κ} (h : k' ≠ k) (m : BoundedMap κ ν capacity) :
    (m.delete k).lookup k' = m.lookup k' := Finmap.lookup_erase_ne h

lemma lookup_update_of_ne {k k' : κ} (h : k' ≠ k) (v : ν) (failed : Bool)
    (m : BoundedMap κ ν capacity) : (m.update k v failed).lookup k' = m.lookup k' := by
  unfold update
  split
  · rfl
  · exact Finmap.lookup_insert_of_ne _ h

/-- After an update a key holds the new value or what it held before. -/
lemma lookup_update_cases (k : κ) (v : ν) (failed : Bool) (m : BoundedMap κ ν capacity) :
    (m.update k v failed).lookup k = some v ∨ (m.update k v failed).lookup k = m.lookup k := by
  unfold update
  split
  · exact Or.inr rfl
  · exact Or.inl (Finmap.lookup_insert _)

/-- An update that is not refused is made. -/
lemma lookup_update_self {k : κ} {failed : Bool} {m : BoundedMap κ ν capacity}
    (h : ¬ m.Refuses k failed) (v : ν) : (m.update k v failed).lookup k = some v := by
  rw [update, dif_neg h]
  exact Finmap.lookup_insert _

/-- With fewer keys than the capacity only the caller's allocation can fail. -/
lemma not_refuses {k : κ} {m : BoundedMap κ ν capacity} {s : Finset κ}
    (hkeys : m.entries.keys ⊆ s) (hroom : (insert k s).card ≤ capacity) :
    ¬ m.Refuses k false := by
  rintro (hfailed | ⟨hnew, hfull⟩)
  · cases hfailed
  · have hsub : insert k m.entries.keys ⊆ insert k s := Finset.insert_subset_insert k hkeys
    have hcard := Finset.card_le_card hsub
    rw [Finset.card_insert_of_notMem (fun hk => hnew (Finmap.mem_keys.mp hk))] at hcard
    omega

lemma keys_update_subset (k : κ) (v : ν) (failed : Bool) (m : BoundedMap κ ν capacity) :
    (m.update k v failed).entries.keys ⊆ insert k m.entries.keys := by
  unfold update
  split
  · exact Finset.subset_insert _ _
  · intro k' hk'
    rcases Finmap.mem_insert.mp (Finmap.mem_keys.mp hk') with rfl | hmem
    · exact Finset.mem_insert_self _ _
    · exact Finset.mem_insert_of_mem (Finmap.mem_keys.mpr hmem)

lemma keys_delete (k : κ) (m : BoundedMap κ ν capacity) :
    (m.delete k).entries.keys = m.entries.keys.erase k := Finmap.keys_erase k m.entries

end BoundedMap

end Akil
