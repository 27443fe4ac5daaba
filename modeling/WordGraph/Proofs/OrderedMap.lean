import Mathlib.Data.List.Induction
import Mathlib.Data.List.Nodup
import WordGraph.OrderedMap

/-!
What the operations of an ordered map do to its entries, its keys and a look-up, and the lists from
which a map is built again unchanged.
-/

namespace WordGraph.OrderedMap

universe u v
variable {κ : Type u} {α : Type v}

@[simp] theorem keys_empty : (∅ : OrderedMap κ α).keys = [] := rfl

theorem keys_nodup (m : OrderedMap κ α) : m.keys.Nodup := m.nodup_keys

theorem keys_filter (m : OrderedMap κ α) (p : κ → Bool) :
    (m.filter fun k _ => p k).keys = m.keys.filter p := by
  simp only [keys, filter, List.filter_map, Function.comp_def]

theorem filter_filter (m : OrderedMap κ α) (p : κ → α → Bool) : (m.filter p).filter p = m.filter p := by
  apply ext_entries
  simp only [filter, List.filter_filter, Bool.and_self]

variable [DecidableEq κ]

@[simp] theorem keys_erase (m : OrderedMap κ α) (k : κ) :
    (m.erase k).keys = m.keys.filter (· ≠ k) := keys_filter m _

@[simp] theorem keys_modify (m : OrderedMap κ α) (k : κ) (f : α → α) :
    (m.modify k f).keys = m.keys := by
  simp only [keys, modify, List.map_map]
  exact List.map_congr_left fun e _ => by simp only [Function.comp]; split <;> rfl

theorem mem_keys_iff (m : OrderedMap κ α) (k : κ) : k ∈ m.keys ↔ ∃ a, m.find? k = some a := by
  rw [← Option.isSome_iff_exists, Option.isSome_iff_ne_none, ne_eq, find?_eq_none_iff,
    Decidable.not_not]

theorem mem_keys_insert (m : OrderedMap κ α) (k j : κ) (a : α) :
    j ∈ (m.insert k a).keys ↔ j ∈ m.keys ∨ j = k := by
  rw [keys_insert]
  split
  · rename_i known
    constructor
    · exact Or.inl
    · intro h
      cases h with
      | inl h => exact h
      | inr h => exact h ▸ known
  · rw [List.mem_append, List.mem_singleton]

/-- A key that is new goes behind all others. -/
theorem entries_insert_new (m : OrderedMap κ α) (k : κ) (a : α) (h : k ∉ m.keys) :
    (m.insert k a).entries = m.entries ++ [(k, a)] := by
  have key (es : List (κ × α)) (h : k ∉ es.map Prod.fst) :
      putEntry k a es = es ++ [(k, a)] := by
    induction es with
    | nil => rfl
    | cons e es ih =>
        rw [List.map_cons, List.mem_cons, not_or] at h
        rw [putEntry, if_neg (Ne.symm h.1), ih h.2, List.cons_append]
  exact key m.entries h

theorem find?_modify (m : OrderedMap κ α) (k j : κ) (f : α → α) :
    (m.modify k f).find? j = if k = j then (m.find? k).map f else m.find? j := by
  simp only [find?, modify, List.find?_map, Option.map_map, Function.comp_def]
  have hkey (e : κ × α) : (if e.1 = k then (e.1, f e.2) else e).1 = e.1 := by split <;> rfl
  simp only [hkey]
  by_cases h : k = j
  · subst h
    rw [if_pos rfl]
    cases he : m.entries.find? fun e => decide (e.1 = k) with
    | none => rfl
    | some e =>
        have : e.1 = k := by simpa using List.find?_some he
        simp [this]
  · rw [if_neg h]
    cases he : m.entries.find? fun e => decide (e.1 = j) with
    | none => rfl
    | some e =>
        have : e.1 = j := by simpa using List.find?_some he
        simp [this, Ne.symm h]

/-- Pairs whose keys are new and distinct go behind all others. -/
theorem entries_foldl_insert_new (m : OrderedMap κ α) {es : List (κ × α)}
    (new : (m.entries ++ es).map Prod.fst |>.Nodup) :
    (es.foldl (fun m e => m.insert e.1 e.2) m).entries = m.entries ++ es := by
  induction es generalizing m with
  | nil => exact (List.append_nil _).symm
  | cons e es ih =>
      rw [List.map_append, List.map_cons] at new
      have fresh : e.1 ∉ m.keys := fun h =>
        (List.nodup_append.1 new).2.2 e.1 h e.1 (List.mem_cons_self ..) rfl
      have grown := entries_insert_new m e.1 e.2 fresh
      have whole : (m.insert e.1 e.2).entries ++ es = m.entries ++ e :: es := by
        rw [grown, List.append_assoc, List.singleton_append]
      rw [List.foldl_cons, ih, whole]
      rw [whole, List.map_append, List.map_cons]
      exact new

/-- A list without a repeated key becomes the map whose entries it lists. -/
theorem ofList_entries (m : OrderedMap κ α) : ofList m.entries = m :=
  ext_entries (entries_foldl_insert_new ∅ m.nodup_keys)

theorem ofList_concat (pairs : List (κ × α)) (e : κ × α) :
    ofList (pairs ++ [e]) = (ofList pairs).insert e.1 e.2 := List.foldl_concat ..

theorem mem_of_mem_ofList {pairs : List (κ × α)} {e : κ × α} (h : e ∈ (ofList pairs).entries) :
    e ∈ pairs := by
  induction pairs using List.reverseRecOn with
  | nil => cases h
  | append_singleton pairs x ih =>
      rw [ofList_concat] at h
      rcases mem_entries_insert h with rfl | h
      · exact List.mem_append_right _ (List.mem_singleton.2 rfl)
      · exact List.mem_append_left _ (ih h)

/-- Keys that are put go behind those that were there, each where it first comes. -/
theorem keys_foldl_insert (m : OrderedMap κ α) (pairs : List (κ × α)) :
    (pairs.foldl (fun m e => m.insert e.1 e.2) m).keys =
      m.keys ++ ((pairs.map Prod.fst).filter (· ∉ m.keys)).eraseDups := by
  induction pairs using List.reverseRecOn with
  | nil => exact (List.append_nil _).symm
  | append_singleton pairs e ih =>
      rw [List.foldl_concat, keys_insert, ih, List.map_append, List.filter_append, List.eraseDups_append]
      by_cases old : e.1 ∈ m.keys
      · simp [old]
      · by_cases known : e.1 ∈ pairs.map Prod.fst <;>
          simp [old, List.mem_eraseDups, List.removeAll, known, List.eraseDups_cons]

/-- Of the pairs with one key, the first decides the place. -/
theorem keys_ofList (pairs : List (κ × α)) :
    (ofList pairs).keys = (pairs.map Prod.fst).eraseDups := by
  rw [ofList, keys_foldl_insert, keys_empty, List.nil_append]
  exact congrArg List.eraseDups (List.filter_eq_self.2 fun k _ => decide_eq_true List.not_mem_nil)

/-- Of pairs that are put one after another, the last with a key decides what is found under it. -/
theorem find?_foldl_insert (m : OrderedMap κ α) (pairs : List (κ × α)) (k : κ) :
    (pairs.foldl (fun m e => m.insert e.1 e.2) m).find? k =
      ((pairs.filter (·.1 = k)).getLast?.map Prod.snd).or (m.find? k) := by
  induction pairs using List.reverseRecOn with
  | nil => rfl
  | append_singleton pairs e ih =>
      rw [List.foldl_concat, find?_insert, ih, List.filter_append]
      by_cases h : e.1 = k
      · simp [h]
      · simp [h]

theorem find?_ofList (pairs : List (κ × α)) (k : κ) :
    (ofList pairs).find? k = (pairs.filter (·.1 = k)).getLast?.map Prod.snd := by
  rw [ofList, find?_foldl_insert, find?_empty, Option.or_none]

/-- A map is known by its keys in their order and by what is found under them. -/
theorem ext_find? {m n : OrderedMap κ α} (keys : m.keys = n.keys)
    (found : ∀ k, m.find? k = n.find? k) : m = n := by
  have listed (m : OrderedMap κ α) :
      m.entries = m.keys.filterMap fun k => (m.find? k).map fun a => (k, a) := by
    rw [OrderedMap.keys, List.filterMap_map]
    have stored : ∀ e ∈ m.entries, (m.find? e.1).map (fun a => (e.1, a)) = some e := fun e he => by
      rw [(m.find?_eq_some_iff e.1 e.2).2 he]
      rfl
    exact (List.filterMap_some.symm.trans (List.filterMap_congr fun e he => (stored e he).symm))
  apply ext_entries
  rw [listed m, listed n, keys]
  simp only [found]

section Rewriting

/-- Where no key is given twice, each of the values under them is rewritten once. -/
theorem entries_foldl_modify (m : OrderedMap κ α) (f : α → α) {ks : List κ} (distinct : ks.Nodup) :
    (ks.foldl (fun m k => m.modify k f) m).entries =
      m.entries.map fun e => if e.1 ∈ ks then (e.1, f e.2) else e := by
  induction ks generalizing m with
  | nil => simp
  | cons k ks ih =>
      obtain ⟨new, distinct⟩ := List.nodup_cons.1 distinct
      rw [List.foldl_cons, ih _ distinct, modify, List.map_map]
      refine List.map_congr_left fun e _ => ?_
      by_cases here : e.1 = k
      · simp [here, new]
      · simp [here]

/-- Values that are rewritten and written back are as they were. -/
theorem foldl_modify_back (m : OrderedMap κ α) {f g : α → α} {ks js : List κ} (distinct : ks.Nodup)
    (distinct' : js.Nodup) (same : ∀ k, k ∈ js ↔ k ∈ ks)
    (back : ∀ e ∈ m.entries, e.1 ∈ ks → g (f e.2) = e.2) :
    js.foldl (fun m k => m.modify k g) (ks.foldl (fun m k => m.modify k f) m) = m := by
  apply ext_entries
  rw [entries_foldl_modify _ _ distinct', entries_foldl_modify _ _ distinct, List.map_map]
  refine (List.map_congr_left fun e he => ?_).trans (List.map_id _)
  by_cases listed : e.1 ∈ ks
  · have listed' : e.1 ∈ js := (same _).2 listed
    simp [listed, listed', back e he listed]
  · have other : e.1 ∉ js := mt (same _).1 listed
    simp [listed, other]

end Rewriting

section Repetition

/-- To put what is there already changes nothing. -/
theorem insert_of_find? {m : OrderedMap κ α} {k : κ} {a : α} (h : m.find? k = some a) :
    m.insert k a = m := by
  refine ext_find? ?_ fun j => ?_
  · rw [keys_insert, if_pos ((mem_keys_iff m k).2 ⟨a, h⟩)]
  · rw [find?_insert]
    split
    · rename_i same
      rw [← same, h]
    · rfl

theorem keys_foldl_insert_known {m : OrderedMap κ α} {pairs : List (κ × α)}
    (known : ∀ e ∈ pairs, e.1 ∈ m.keys) :
    (pairs.foldl (fun m e => m.insert e.1 e.2) m).keys = m.keys := by
  induction pairs generalizing m with
  | nil => rfl
  | cons e pairs ih =>
      have same : (m.insert e.1 e.2).keys = m.keys := by
        rw [keys_insert, if_pos (known e (List.mem_cons_self ..))]
      rw [List.foldl_cons, ih, same]
      rw [same]
      exact fun f hf => known f (List.mem_cons_of_mem _ hf)

theorem mem_keys_foldl_insert (m : OrderedMap κ α) {pairs : List (κ × α)} {e : κ × α}
    (he : e ∈ pairs) : e.1 ∈ (pairs.foldl (fun m e => m.insert e.1 e.2) m).keys := by
  have listed : e ∈ pairs.filter (·.1 = e.1) := List.mem_filter.2 ⟨he, decide_eq_true rfl⟩
  obtain ⟨last, found⟩ := Option.ne_none_iff_exists'.1
    (mt List.getLast?_eq_none_iff.1 (List.ne_nil_of_mem listed))
  refine (mem_keys_iff ..).2 ⟨last.2, ?_⟩
  rw [find?_foldl_insert, found]
  rfl

/-- Pairs that are put once more find their keys there, and every key has the value it had. -/
theorem foldl_insert_again (m : OrderedMap κ α) (pairs : List (κ × α)) :
    pairs.foldl (fun m e => m.insert e.1 e.2) (pairs.foldl (fun m e => m.insert e.1 e.2) m) =
      pairs.foldl (fun m e => m.insert e.1 e.2) m := by
  refine ext_find? (keys_foldl_insert_known fun e he => mem_keys_foldl_insert m he) fun k => ?_
  rw [find?_foldl_insert, find?_foldl_insert, ← Option.or_assoc, Option.or_self]

theorem merge_merge (m n : OrderedMap κ α) : (m.merge n).merge n = m.merge n :=
  foldl_insert_again m n.entries

theorem modify_of_fixed {m : OrderedMap κ α} {k : κ} {f : α → α}
    (fixed : ∀ a, m.find? k = some a → f a = a) : m.modify k f = m := by
  refine ext_find? (keys_modify m k f) fun j => ?_
  rw [find?_modify]
  split
  · rename_i same
    rw [← same]
    cases found : m.find? k with
    | none => rfl
    | some a => rw [Option.map_some, fixed a found]
  · rfl

theorem find?_foldl_modify_other (m : OrderedMap κ α) (f : α → α) {ks : List κ} {j : κ}
    (other : j ∉ ks) : (ks.foldl (fun m k => m.modify k f) m).find? j = m.find? j := by
  induction ks generalizing m with
  | nil => rfl
  | cons k ks ih =>
      rw [List.mem_cons, not_or] at other
      rw [List.foldl_cons, ih _ other.2, find?_modify, if_neg (Ne.symm other.1)]

/-- What stands under a key that was rewritten by `f` is left alone by a further `f`, if one more `f`
never changes what an `f` has made. -/
theorem fixed_of_foldl_modify (m : OrderedMap κ α) {f : α → α} (again : ∀ a, f (f a) = f a)
    (ks : List κ) {k : κ} (rewritten : k ∈ ks ∨ ∀ a, m.find? k = some a → f a = a) :
    ∀ a, (ks.foldl (fun m k => m.modify k f) m).find? k = some a → f a = a := by
  induction ks generalizing m with
  | nil => exact rewritten.resolve_left List.not_mem_nil
  | cons j ks ih =>
      refine ih (m.modify j f) ?_
      by_cases later : k ∈ ks
      · exact .inl later
      · refine .inr fun a found => ?_
        rw [find?_modify] at found
        split at found
        · obtain ⟨b, _, rfl⟩ := Option.map_eq_some_iff.1 found
          exact again b
        · rename_i different
          have old := rewritten.resolve_left fun mem =>
            (List.mem_cons.1 mem).elim (fun same => different same.symm) later
          exact old a found

/-- To rewrite some of the values once more changes nothing. -/
theorem foldl_modify_again (m : OrderedMap κ α) {f : α → α} (again : ∀ a, f (f a) = f a)
    {ks js : List κ} (known : ∀ j ∈ js, j ∈ ks) :
    js.foldl (fun m k => m.modify k f) (ks.foldl (fun m k => m.modify k f) m) =
      ks.foldl (fun m k => m.modify k f) m := by
  induction js with
  | nil => rfl
  | cons j js ih =>
      have fixed := fixed_of_foldl_modify m again ks (.inl (known j (List.mem_cons_self ..)))
      rw [List.foldl_cons, modify_of_fixed fixed]
      exact ih fun i hi => known i (List.mem_cons_of_mem _ hi)

end Repetition

end WordGraph.OrderedMap
