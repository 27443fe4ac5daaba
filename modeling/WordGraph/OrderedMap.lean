/-!
A finite map that remembers the order in which its keys arrived. Putting a key that is already there
changes its value and not its place; erasing a key closes the gap. The main statements say what each
operation does to the keys and to a look-up.
-/

namespace WordGraph

universe u v

/-- The entries stand in the order in which their keys arrived, and no key stands twice. -/
structure OrderedMap (κ : Type u) (α : Type v) where
  entries : List (κ × α)
  nodup_keys : (entries.map Prod.fst).Nodup

namespace OrderedMap

variable {κ : Type u} {α : Type v}

theorem ext_entries {m n : OrderedMap κ α} (h : m.entries = n.entries) : m = n := by
  cases m; cases n; cases h; rfl

instance [DecidableEq κ] [DecidableEq α] : DecidableEq (OrderedMap κ α) := fun m n =>
  decidable_of_iff (m.entries = n.entries) ⟨ext_entries, fun h => h ▸ rfl⟩

def empty : OrderedMap κ α := ⟨[], .nil⟩

instance : EmptyCollection (OrderedMap κ α) := ⟨empty⟩
instance : Inhabited (OrderedMap κ α) := ⟨empty⟩

def keys (m : OrderedMap κ α) : List κ := m.entries.map Prod.fst
def values (m : OrderedMap κ α) : List α := m.entries.map Prod.snd
def size (m : OrderedMap κ α) : Nat := m.entries.length
def isEmpty (m : OrderedMap κ α) : Bool := m.entries.isEmpty

variable [DecidableEq κ]

def find? (m : OrderedMap κ α) (k : κ) : Option α :=
  (m.entries.find? (·.1 = k)).map Prod.snd

def contains (m : OrderedMap κ α) (k : κ) : Bool := m.entries.any (·.1 = k)

/-- Gives `k` the value `a` where `k` stands, or at the end if it is new. -/
def putEntry (k : κ) (a : α) : List (κ × α) → List (κ × α)
  | [] => [(k, a)]
  | e :: es => if e.1 = k then (k, a) :: es else e :: putEntry k a es

theorem map_fst_putEntry (k : κ) (a : α) (es : List (κ × α)) :
    (putEntry k a es).map Prod.fst =
      if k ∈ es.map Prod.fst then es.map Prod.fst else es.map Prod.fst ++ [k] := by
  induction es with
  | nil => rfl
  | cons e es ih =>
      by_cases h : e.1 = k
      · simp [putEntry, h]
      · simp only [putEntry, h, if_false, List.map_cons, ih, List.mem_cons, Ne.symm h, false_or]
        split <;> rfl

def insert (m : OrderedMap κ α) (k : κ) (a : α) : OrderedMap κ α where
  entries := putEntry k a m.entries
  nodup_keys := by
    rw [map_fst_putEntry]
    split
    · exact m.nodup_keys
    · rename_i h
      refine List.nodup_append.2 ⟨m.nodup_keys, by simp, fun x hx y hy => ?_⟩
      rw [List.mem_singleton.1 hy]
      exact fun e => h (e ▸ hx)

def filter (p : κ → α → Bool) (m : OrderedMap κ α) : OrderedMap κ α where
  entries := m.entries.filter fun e => p e.1 e.2
  nodup_keys := m.nodup_keys.sublist (List.filter_sublist.map _)

def erase (m : OrderedMap κ α) (k : κ) : OrderedMap κ α := m.filter fun j _ => j ≠ k

/-- Rewrites the value at `k`, if there is one; keys and order stay. -/
def modify (m : OrderedMap κ α) (k : κ) (f : α → α) : OrderedMap κ α where
  entries := m.entries.map fun e => if e.1 = k then (e.1, f e.2) else e
  nodup_keys := by
    have : (m.entries.map fun e => if e.1 = k then (e.1, f e.2) else e).map Prod.fst =
        m.entries.map Prod.fst := by
      rw [List.map_map]
      exact List.map_congr_left fun e _ => by simp only [Function.comp]; split <;> rfl
    rw [this]
    exact m.nodup_keys

/-- Later pairs overwrite earlier ones and keep the earlier place. -/
def ofList (pairs : List (κ × α)) : OrderedMap κ α :=
  pairs.foldl (fun m e => m.insert e.1 e.2) ∅

def merge (m n : OrderedMap κ α) : OrderedMap κ α :=
  n.entries.foldl (fun m e => m.insert e.1 e.2) m

theorem mem_entries_insert {m : OrderedMap κ α} {k : κ} {a : α} {e : κ × α}
    (h : e ∈ (m.insert k a).entries) : e = (k, a) ∨ e ∈ m.entries := by
  have key (es : List (κ × α)) : e ∈ putEntry k a es → e = (k, a) ∨ e ∈ es := by
    induction es with
    | nil => simp [putEntry]
    | cons x xs ih =>
        simp only [putEntry]
        split
        · intro h
          rcases List.mem_cons.1 h with h | h <;> simp [h]
        · intro h
          rcases List.mem_cons.1 h with h | h
          · simp [h]
          · rcases ih h with h | h <;> simp [h]
  exact key m.entries h

theorem mem_entries_merge {m n : OrderedMap κ α} {e : κ × α} (h : e ∈ (m.merge n).entries) :
    e ∈ m.entries ∨ e ∈ n.entries := by
  obtain ⟨es, nodup⟩ := n
  simp only [merge] at h
  induction es generalizing m with
  | nil => exact .inl h
  | cons x xs ih =>
      rcases ih (List.nodup_cons.1 nodup).2 h with h | h
      · rcases mem_entries_insert h with h | h
        · exact .inr (by simp [h])
        · exact .inl h
      · exact .inr (List.mem_cons_of_mem _ h)

@[simp] theorem find?_empty (k : κ) : (∅ : OrderedMap κ α).find? k = none := rfl

theorem keys_insert (m : OrderedMap κ α) (k : κ) (a : α) :
    (m.insert k a).keys = if k ∈ m.keys then m.keys else m.keys ++ [k] :=
  map_fst_putEntry k a m.entries

theorem find?_insert (m : OrderedMap κ α) (k j : κ) (a : α) :
    (m.insert k a).find? j = if k = j then some a else m.find? j := by
  have key (es : List (κ × α)) : ((putEntry k a es).find? (·.1 = j)).map Prod.snd =
      if k = j then some a else (es.find? (·.1 = j)).map Prod.snd := by
    induction es with
    | nil => by_cases h : k = j <;> simp [putEntry, h]
    | cons e es ih =>
        by_cases he : e.1 = k
        · by_cases h : k = j
          · simp [putEntry, he, h]
          · simp [putEntry, he, h]
        · by_cases h : e.1 = j
          · have hk : ¬ k = j := fun hk => he (h.trans hk.symm)
            rw [putEntry, if_neg he, List.find?_cons_of_pos (by simpa using h), if_neg hk,
              List.find?_cons_of_pos (by simpa using h)]
          · rw [putEntry, if_neg he, List.find?_cons_of_neg (by simpa using h), ih,
              List.find?_cons_of_neg (by simpa using h)]
  exact key m.entries

theorem find?_erase (m : OrderedMap κ α) (k j : κ) :
    (m.erase k).find? j = if k = j then none else m.find? j := by
  simp only [find?, erase, filter, List.find?_filter]
  by_cases h : k = j
  · subst h; simp
  · simp only [h, if_false]
    congr 2
    funext e
    by_cases he : e.1 = j
    · simp [he, Ne.symm h]
    · simp [he]

theorem contains_iff_mem_keys (m : OrderedMap κ α) (k : κ) : m.contains k = true ↔ k ∈ m.keys := by
  simp [contains, keys]

theorem find?_eq_none_iff (m : OrderedMap κ α) (k : κ) : m.find? k = none ↔ k ∉ m.keys := by
  simp only [find?, keys, Option.map_eq_none_iff, List.find?_eq_none, decide_eq_true_eq, List.mem_map]
  exact ⟨fun h ⟨e, he, hk⟩ => h e he hk, fun h e he hk => h ⟨e, he, hk⟩⟩

theorem find?_eq_some_iff (m : OrderedMap κ α) (k : κ) (a : α) :
    m.find? k = some a ↔ (k, a) ∈ m.entries := by
  obtain ⟨es, nodup⟩ := m
  simp only [find?]
  induction es with
  | nil => simp
  | cons e es ih =>
      have nodup' := List.nodup_cons.1 nodup
      by_cases h : e.1 = k
      · subst h
        simp only [List.find?_cons_of_pos, decide_true, Option.map_some, Option.some.injEq,
          List.mem_cons]
        constructor
        · intro same
          exact .inl (same ▸ rfl)
        · intro h
          rcases h with h | h
          · rw [← h]
          · exact absurd (List.mem_map_of_mem h) nodup'.1
      · rw [List.find?_cons_of_neg (by simpa using h), ih nodup'.2, List.mem_cons]
        exact ⟨.inr, fun h' => h'.elim (fun e => absurd (by rw [← e]) h) id⟩

end OrderedMap
end WordGraph
