import WordGraph.OrderedMap

/-!
Catalogs: ordered maps in which every value stands under the key that it names. The value carries its
key with it, so whoever puts one has to show that it is put in its place, and the list of the values
alone tells the whole catalog.
-/

namespace WordGraph

universe u v

structure Catalog {κ : Type u} {α : Type v} (key : α → κ) extends OrderedMap κ α where
  keyed : ∀ e ∈ entries, key e.2 = e.1

namespace Catalog

variable {κ : Type u} {α : Type v} {key : α → κ}

theorem ext_map {m n : Catalog key} (h : m.toOrderedMap = n.toOrderedMap) : m = n := by
  cases m; cases n; cases h; rfl

def empty : Catalog key := ⟨∅, fun _ h => nomatch h⟩

instance : EmptyCollection (Catalog key) := ⟨empty⟩
instance : Inhabited (Catalog key) := ⟨empty⟩

theorem map_key_values (m : Catalog key) : m.values.map key = m.keys := by
  rw [OrderedMap.values, OrderedMap.keys, List.map_map]
  exact List.map_congr_left m.keyed

/-- The values are the entries without the keys, which can be read off them. -/
theorem map_entry_values (m : Catalog key) : m.values.map (fun a => (key a, a)) = m.entries := by
  rw [OrderedMap.values, List.map_map]
  refine (List.map_congr_left fun e he => ?_).trans (List.map_id _)
  exact Prod.ext (m.keyed e he) rfl

theorem ext_values {m n : Catalog key} (h : m.values = n.values) : m = n := by
  refine ext_map (OrderedMap.ext_entries ?_)
  rw [← m.map_entry_values, ← n.map_entry_values, h]

def filter (p : κ → α → Bool) (m : Catalog key) : Catalog key where
  toOrderedMap := m.toOrderedMap.filter p
  keyed e he := m.keyed e (List.mem_filter.1 he).1

@[simp] theorem toOrderedMap_filter (m : Catalog key) (p : κ → α → Bool) :
    (m.filter p).toOrderedMap = m.toOrderedMap.filter p := rfl

variable [DecidableEq κ]

instance [DecidableEq α] : DecidableEq (Catalog key) := fun m n =>
  decidable_of_iff (m.toOrderedMap = n.toOrderedMap) ⟨ext_map, fun h => h ▸ rfl⟩

/-- Puts a value under the key that it names. -/
def insert (m : Catalog key) (k : κ) (a : α) (named : key a = k) : Catalog key where
  toOrderedMap := m.toOrderedMap.insert k a
  keyed e he := by
    rcases OrderedMap.mem_entries_insert he with rfl | old
    · exact named
    · exact m.keyed e old

def erase (m : Catalog key) (k : κ) : Catalog key := m.filter fun j _ => j ≠ k

/-- Rewrites the value at a key in a way that leaves values under their keys. -/
def modify (m : Catalog key) (k : κ) (f : α → α) (kept : ∀ a, key (f a) = key a) : Catalog key where
  toOrderedMap := m.toOrderedMap.modify k f
  keyed e he := by
    obtain ⟨old, stored, rfl⟩ := List.mem_map.1 he
    split
    · exact (kept old.2).trans (m.keyed old stored)
    · exact m.keyed old stored

section Views

variable (m : Catalog key) (k : κ) (a : α) (f : α → α)

@[simp] theorem toOrderedMap_insert (named : key a = k) :
    (m.insert k a named).toOrderedMap = m.toOrderedMap.insert k a := rfl

@[simp] theorem toOrderedMap_erase : (m.erase k).toOrderedMap = m.toOrderedMap.erase k := rfl

@[simp] theorem toOrderedMap_modify (kept : ∀ a, key (f a) = key a) :
    (m.modify k f kept).toOrderedMap = m.toOrderedMap.modify k f := rfl

theorem find?_eq_some_iff_value : m.find? k = some a ↔ a ∈ m.values ∧ key a = k := by
  rw [OrderedMap.find?_eq_some_iff, OrderedMap.values, List.mem_map]
  constructor
  · intro stored
    exact ⟨⟨_, stored, rfl⟩, m.keyed _ stored⟩
  · rintro ⟨⟨e, stored, rfl⟩, rfl⟩
    rw [m.keyed e stored]
    exact stored

end Views
end Catalog
end WordGraph
