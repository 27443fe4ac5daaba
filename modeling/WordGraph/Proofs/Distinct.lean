import Mathlib.Data.List.Basic

/-!
The distinct elements of a list in the order in which they first occur. Dropping repeated elements
early changes nothing in the distinct results of a step that is taken for every element.
-/

namespace WordGraph.Distinct

universe u v
variable {α : Type u} {β : Type v} [BEq β]

theorem removeAll_flatMap (xs : List α) (f : α → List β) (gone : List β) :
    (xs.flatMap f).removeAll gone = xs.flatMap fun x => (f x).removeAll gone := by
  simp only [List.removeAll, List.filter_flatMap]

variable [LawfulBEq β] [BEq α] [LawfulBEq α]

/-- Results that are there already may be made again from an element that was met. -/
theorem flatMap_filter_removeAll (x : α) (xs : List α) (f : α → List β) :
    ((xs.filter fun y => !y == x).flatMap fun y => (f y).removeAll (f x)) =
      xs.flatMap fun y => (f y).removeAll (f x) := by
  induction xs with
  | nil => rfl
  | cons y ys ih =>
      by_cases h : y = x
      · subst h
        have nothing : (f y).removeAll (f y) = [] := by
          simp [List.removeAll, List.filter_eq_nil_iff]
        simp [ih, nothing]
      · simp [h, ih]

theorem eraseDups_flatMap_eraseDups (xs : List α) (f : α → List β) :
    (xs.eraseDups.flatMap f).eraseDups = (xs.flatMap f).eraseDups := by
  match xs with
  | [] => rfl
  | x :: xs =>
      have shorter : (xs.filter fun y => !y == x).length < xs.length + 1 :=
        Nat.lt_succ_of_le (List.length_filter_le ..)
      rw [List.eraseDups_cons, List.flatMap_cons, List.flatMap_cons, List.eraseDups_append,
        List.eraseDups_append, removeAll_flatMap, removeAll_flatMap,
        eraseDups_flatMap_eraseDups (xs.filter fun y => !y == x), flatMap_filter_removeAll]
termination_by xs.length

theorem eraseDups_filter (xs : List α) (p : α → Bool) :
    (xs.filter p).eraseDups = xs.eraseDups.filter p := by
  match xs with
  | [] => rfl
  | x :: xs =>
      have shorter : (xs.filter fun y => !y == x).length < xs.length + 1 :=
        Nat.lt_succ_of_le (List.length_filter_le ..)
      have rest := eraseDups_filter (xs.filter fun y => !y == x) p
      rw [List.filter_filter] at rest
      cases hx : p x with
      | true =>
          rw [List.filter_cons_of_pos hx, List.eraseDups_cons, List.eraseDups_cons,
            List.filter_cons_of_pos hx, List.filter_filter, ← rest]
          simp only [Bool.and_comm]
      | false =>
          -- An element that is left out was no other one's repetition.
          have same : xs.filter (fun y => p y && !y == x) = xs.filter p := by
            refine List.filter_congr fun y _ => ?_
            by_cases hy : y = x
            · rw [hy, hx, Bool.false_and]
            · simp [hy]
          rw [List.filter_cons_of_neg (by simp [hx]), List.eraseDups_cons,
            List.filter_cons_of_neg (by simp [hx]), ← rest, same]
termination_by xs.length

theorem nodup_eraseDups {γ : Type u} [BEq γ] [LawfulBEq γ] (xs : List γ) : xs.eraseDups.Nodup := by
  match xs with
  | [] => exact List.nodup_nil
  | x :: xs =>
      have shorter : (xs.filter fun y => !y == x).length < xs.length + 1 :=
        Nat.lt_succ_of_le (List.length_filter_le ..)
      rw [List.eraseDups_cons, List.nodup_cons, List.mem_eraseDups]
      exact ⟨by simp, nodup_eraseDups _⟩
termination_by xs.length

theorem eraseDups_of_nodup {xs : List α} (distinct : xs.Nodup) : xs.eraseDups = xs := by
  induction xs with
  | nil => rfl
  | cons x xs ih =>
      obtain ⟨new, distinct⟩ := List.nodup_cons.1 distinct
      have kept : xs.filter (fun y => !y == x) = xs := by
        refine List.filter_eq_self.2 fun y hy => ?_
        have other : y ≠ x := fun same => new (same ▸ hy)
        simpa using other
      rw [List.eraseDups_cons, kept, ih distinct]

/-- What rows of elements leave behind one another depends only on what each of them leaves. -/
theorem eraseDups_append_congr {xs xs' ys ys' : List β} (first : xs.eraseDups = xs'.eraseDups)
    (second : ys.eraseDups = ys'.eraseDups) : (xs ++ ys).eraseDups = (xs' ++ ys').eraseDups := by
  have members (y : β) : y ∈ xs ↔ y ∈ xs' := by
    rw [← List.mem_eraseDups, first, List.mem_eraseDups]
  have gone : ys'.removeAll xs = ys'.removeAll xs' :=
    List.filter_congr fun y _ => by simp [members y]
  rw [List.eraseDups_append, List.eraseDups_append, first, ← gone, List.removeAll, List.removeAll,
    eraseDups_filter, eraseDups_filter, second]

theorem eraseDups_flatMap_congr {γ : Type u} {xs : List γ} {f g : γ → List β}
    (same : ∀ x ∈ xs, (f x).eraseDups = (g x).eraseDups) :
    (xs.flatMap f).eraseDups = (xs.flatMap g).eraseDups := by
  induction xs with
  | nil => rfl
  | cons x xs ih =>
      obtain ⟨here, later⟩ := List.forall_mem_cons.1 same
      rw [List.flatMap_cons, List.flatMap_cons]
      exact eraseDups_append_congr here (ih later)

theorem eraseDups_map_eraseDups (xs : List α) (f : α → β) :
    (xs.eraseDups.map f).eraseDups = (xs.map f).eraseDups := by
  rw [List.map_eq_flatMap, List.map_eq_flatMap, eraseDups_flatMap_eraseDups]

/-- An element that is there already may be left out behind. -/
theorem eraseDups_append_cons_of_mem {xs ys : List α} {x : α} (known : x ∈ xs) :
    (xs ++ x :: ys).eraseDups = (xs ++ ys).eraseDups := by
  have gone : (x :: ys).removeAll xs = ys.removeAll xs := by simp [List.removeAll, known]
  rw [List.eraseDups_append, List.eraseDups_append, gone]

end WordGraph.Distinct
