/-!
Ways of writing whose texts tell where they end. Where two things are written so, each before a rest
that cannot be taken for more of it, equal texts have equal things and equal rests; a row of such
things may then be written one behind another.
-/

namespace WordGraph.Text

universe u
variable {α : Type u}

/-- Says that a text written for one of these things tells where it ends, if what stands behind it
begins as `Next` says. -/
def Delimited (write : α → List Char) (These : α → Prop) (Next : List Char → Prop) : Prop :=
  ∀ ⦃a b : α⦄ ⦃u v : List Char⦄, These a → These b → Next u → Next v →
    write a ++ u = write b ++ v → a = b ∧ u = v

/-- A row ends where the rest does not begin like one more of its things. -/
theorem Delimited.flatMap {write : α → List Char} {These : α → Prop} {Next : List Char → Prop}
    (one : Delimited write These Next) (goes : ∀ a u, Next (write a ++ u)) :
    Delimited (List.flatMap write) (fun as => ∀ a ∈ as, These a)
      fun u => Next u ∧ ∀ a v, These a → u ≠ write a ++ v := by
  intro as bs u v these those next next' same
  have follows {as : List α} {u : List Char} (h : Next u) : Next (as.flatMap write ++ u) := by
    cases as with
    | nil => exact h
    | cons a as =>
        rw [List.flatMap_cons, List.append_assoc]
        exact goes a _
  induction as generalizing bs with
  | nil =>
      cases bs with
      | nil => exact ⟨rfl, same⟩
      | cons b bs =>
          rw [List.flatMap_nil, List.nil_append, List.flatMap_cons, List.append_assoc] at same
          exact absurd same (next.2 b _ (those b (List.mem_cons_self ..)))
  | cons a as ih =>
      cases bs with
      | nil =>
          rw [List.flatMap_nil, List.nil_append, List.flatMap_cons, List.append_assoc] at same
          exact absurd same.symm (next'.2 a _ (these a (List.mem_cons_self ..)))
      | cons b bs =>
          obtain ⟨ha, has⟩ := List.forall_mem_cons.1 these
          obtain ⟨hb, hbs⟩ := List.forall_mem_cons.1 those
          rw [List.flatMap_cons, List.flatMap_cons, List.append_assoc, List.append_assoc] at same
          obtain ⟨rfl, later⟩ := one ha hb (follows next.1) (follows next'.1) same
          obtain ⟨rfl, rest⟩ := ih has hbs later
          exact ⟨rfl, rest⟩

/-- A number ends at the first character that is no digit. -/
theorem delimited_number :
    Delimited (Nat.toDigits 10) (fun _ => True) fun u => ∀ c ∈ u.head?, c.isDigit = false := by
  have digits {n : Nat} {u : List Char} (next : ∀ c ∈ u.head?, c.isDigit = false) :
      (Nat.toDigits 10 n ++ u).takeWhile Char.isDigit = Nat.toDigits 10 n := by
    have stops : u.takeWhile Char.isDigit = [] := by
      cases u with
      | nil => rfl
      | cons c u => rw [List.takeWhile_cons, next c rfl]; rfl
    rw [List.takeWhile_append_of_pos fun c hc =>
      Nat.isDigit_of_mem_toDigits (by decide) (by decide) hc, stops, List.append_nil]
  intro n m u v _ _ next next' same
  have taken := congrArg (List.takeWhile Char.isDigit) same
  rw [digits next, digits next'] at taken
  rw [taken] at same
  refine ⟨?_, List.append_cancel_left same⟩
  calc n = Nat.ofDigitChars 10 (Nat.toDigits 10 n) 0 :=
        (Nat.ofDigitChars_toDigits (by decide) (by decide)).symm
    _ = Nat.ofDigitChars 10 (Nat.toDigits 10 m) 0 := by rw [taken]
    _ = m := Nat.ofDigitChars_toDigits (by decide) (by decide)

end WordGraph.Text
