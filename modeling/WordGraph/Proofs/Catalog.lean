import WordGraph.Catalog
import WordGraph.Proofs.OrderedMap

/-!
What is left of a catalog and rows of changes to a catalog: values that are put one after another, and values that are rewritten in
place. What they leave is that of the ordered map underneath, and no value comes to stand under
another key than the one that it names.
-/

namespace WordGraph.Catalog

universe u v

variable {κ : Type u} {α : Type v} {key : α → κ}

/-- A choice of keys is a choice of values. -/
theorem values_filter (m : Catalog key) (p : κ → Bool) :
    (m.filter fun k _ => p k).values = m.values.filter fun a => p (key a) := by
  rw [OrderedMap.values, OrderedMap.values, List.filter_map]
  refine congrArg (List.map _) (List.filter_congr fun e he => ?_)
  rw [Function.comp_apply, m.keyed e he]

variable [DecidableEq κ]

theorem values_erase (m : Catalog key) (k : κ) :
    (m.erase k).values = m.values.filter fun a => key a ≠ k := m.values_filter fun j => j ≠ k

theorem values_insert_new (m : Catalog key) {k : κ} {a : α} (named : key a = k) (h : k ∉ m.keys) :
    (m.insert k a named).values = m.values ++ [a] := by
  rw [OrderedMap.values, toOrderedMap_insert, OrderedMap.entries_insert_new _ _ _ h, List.map_append]
  rfl

section Putting

/-- Puts values in turn, each under the key that it names. -/
def putAll (m : Catalog key) (as : List α) : Catalog key :=
  as.foldl (fun m a => m.insert (key a) a rfl) m

theorem putAll_append (m : Catalog key) (as bs : List α) :
    m.putAll (as ++ bs) = (m.putAll as).putAll bs := List.foldl_append

theorem toOrderedMap_putAll (m : Catalog key) (as : List α) :
    (m.putAll as).toOrderedMap =
      (as.map fun a => (key a, a)).foldl (fun m e => m.insert e.1 e.2) m.toOrderedMap := by
  induction as generalizing m with
  | nil => rfl
  | cons a as ih => exact ih (m.insert (key a) a rfl)

/-- The values of a catalog make the catalog. -/
theorem putAll_values (m : Catalog key) : (∅ : Catalog key).putAll m.values = m := by
  apply ext_map
  rw [toOrderedMap_putAll, map_entry_values]
  exact OrderedMap.ofList_entries m.toOrderedMap

theorem putAll_again (m : Catalog key) (as : List α) : (m.putAll as).putAll as = m.putAll as := by
  apply ext_map
  rw [toOrderedMap_putAll, toOrderedMap_putAll]
  exact OrderedMap.foldl_insert_again m.toOrderedMap _

theorem keys_putAll (m : Catalog key) (as : List α) :
    (m.putAll as).keys = m.keys ++ ((as.map key).filter (· ∉ m.keys)).eraseDups := by
  rw [toOrderedMap_putAll, OrderedMap.keys_foldl_insert, List.map_map]
  rfl

theorem mem_keys_putAll (m : Catalog key) {as : List α} {a : α} (h : a ∈ as) :
    key a ∈ (m.putAll as).keys := by
  rw [toOrderedMap_putAll]
  exact OrderedMap.mem_keys_foldl_insert _ (e := (key a, a)) (List.mem_map_of_mem h)

/-- The last of the values with a key is found under it. -/
theorem find?_putAll (m : Catalog key) (as : List α) (k : κ) :
    (m.putAll as).find? k = (as.filter (key · = k)).getLast?.or (m.find? k) := by
  rw [toOrderedMap_putAll, OrderedMap.find?_foldl_insert, List.filter_map, List.getLast?_map,
    Option.map_map]
  exact congrArg (Option.or · _) Option.map_id'

end Putting

section Rewriting

/-- Rewrites the values under these keys in turn. -/
def modifyAll (m : Catalog key) (f : α → α) (kept : ∀ a, key (f a) = key a) (ks : List κ) :
    Catalog key := ks.foldl (fun m k => m.modify k f kept) m

variable {f g : α → α} {kept : ∀ a, key (f a) = key a} {kept' : ∀ a, key (g a) = key a}

theorem toOrderedMap_modifyAll (m : Catalog key) (ks : List κ) :
    (m.modifyAll f kept ks).toOrderedMap = ks.foldl (fun m k => m.modify k f) m.toOrderedMap := by
  induction ks generalizing m with
  | nil => rfl
  | cons k ks ih => exact ih (m.modify k f kept)

theorem values_modifyAll (m : Catalog key) {ks : List κ} (distinct : ks.Nodup) :
    (m.modifyAll f kept ks).values = m.values.map fun a => if key a ∈ ks then f a else a := by
  rw [OrderedMap.values, toOrderedMap_modifyAll, OrderedMap.entries_foldl_modify _ _ distinct,
    OrderedMap.values, List.map_map, List.map_map]
  refine List.map_congr_left fun e he => ?_
  rw [Function.comp_apply, Function.comp_apply, m.keyed e he]
  split <;> rfl

theorem find?_modifyAll_other (m : Catalog key) {ks : List κ} {j : κ} (other : j ∉ ks) :
    (m.modifyAll f kept ks).find? j = m.find? j := by
  rw [toOrderedMap_modifyAll, OrderedMap.find?_foldl_modify_other _ _ other]

theorem modifyAll_again (m : Catalog key) (again : ∀ a, f (f a) = f a) {ks js : List κ}
    (known : ∀ j ∈ js, j ∈ ks) :
    (m.modifyAll f kept ks).modifyAll f kept js = m.modifyAll f kept ks := by
  apply ext_map
  rw [toOrderedMap_modifyAll, toOrderedMap_modifyAll]
  exact OrderedMap.foldl_modify_again m.toOrderedMap again known

theorem modifyAll_back (m : Catalog key) {ks js : List κ} (distinct : ks.Nodup)
    (distinct' : js.Nodup) (same : ∀ k, k ∈ js ↔ k ∈ ks)
    (back : ∀ a ∈ m.values, key a ∈ ks → g (f a) = a) :
    (m.modifyAll f kept ks).modifyAll g kept' js = m := by
  apply ext_map
  rw [toOrderedMap_modifyAll, toOrderedMap_modifyAll]
  refine OrderedMap.foldl_modify_back m.toOrderedMap distinct distinct' same fun e he changed => ?_
  exact back e.2 (List.mem_map_of_mem he) (m.keyed e he ▸ changed)

end Rewriting

end WordGraph.Catalog
