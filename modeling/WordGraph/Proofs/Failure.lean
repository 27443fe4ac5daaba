import Mathlib.Tactic.Basic

/-!
Computations that may fail: when a sequence of them succeeds, with which errors it can fail, what a
fold of them keeps, and when two of them fail alike.
-/

namespace WordGraph.Except

universe u v
variable {ε : Type u} {α β : Type v}

theorem bind_eq_ok_iff (x : Except ε α) (f : α → Except ε β) (b : β) :
    (x >>= f) = .ok b ↔ ∃ a, x = .ok a ∧ f a = .ok b := by
  cases x with
  | error e => exact ⟨nofun, fun ⟨_, h, _⟩ => nomatch h⟩
  | ok a => exact ⟨fun h => ⟨a, rfl, h⟩, fun ⟨_, h, hf⟩ => Except.ok.inj h ▸ hf⟩

theorem map_eq_ok_iff (x : Except ε α) (f : α → β) (b : β) :
    x.map f = .ok b ↔ ∃ a, x = .ok a ∧ f a = b := by
  cases x with
  | error e => exact ⟨nofun, fun ⟨_, h, _⟩ => nomatch h⟩
  | ok a => exact ⟨fun h => ⟨a, rfl, Except.ok.inj h⟩, fun ⟨_, h, hf⟩ => by cases h; exact congrArg _ hf⟩

theorem mapError_eq_ok_iff {ε' : Type u} (x : Except ε α) (f : ε → ε') (a : α) :
    x.mapError f = .ok a ↔ x = .ok a := by
  cases x with
  | error e => exact ⟨nofun, nofun⟩
  | ok b => exact ⟨fun h => Except.ok.inj h ▸ rfl, fun h => Except.ok.inj h ▸ rfl⟩

theorem ite_error_eq_ok_iff {p : Prop} [Decidable p] (e : ε) (x : Except ε α) (a : α) :
    (if p then .error e else x) = .ok a ↔ ¬p ∧ x = .ok a := by
  by_cases h : p
  · rw [if_pos h]
    exact ⟨nofun, fun ⟨no, _⟩ => absurd h no⟩
  · rw [if_neg h]
    exact ⟨fun done => ⟨h, done⟩, And.right⟩

/-- Says that a computation fails with such errors only, if it fails. -/
def FailsOnly (P : ε → Prop) (x : Except ε α) : Prop := ∀ e, x = .error e → P e

namespace FailsOnly

variable {P : ε → Prop} {x : Except ε α}

theorem ok (a : α) : FailsOnly P (.ok a : Except ε α) := nofun

theorem error {e : ε} (h : P e) : FailsOnly P (.error e : Except ε α) :=
  fun _ same => Except.error.inj same ▸ h

/-- A failure of two computations in turn is that of one of them. -/
theorem bind (first : FailsOnly P x) {f : α → Except ε β} (second : ∀ a, FailsOnly P (f a)) :
    FailsOnly P (x >>= f) := by
  cases x with
  | error e => exact .error (first e rfl)
  | ok a => exact second a

theorem map (h : FailsOnly P x) (f : α → β) : FailsOnly P (x.map f) := by
  cases x with
  | error e => exact .error (h e rfl)
  | ok a => exact .ok (f a)

theorem mapError {ε' : Type u} {Q : ε' → Prop} {f : ε → ε'} (h : ∀ e, x = .error e → Q (f e)) :
    FailsOnly Q (x.mapError f) := by
  cases x with
  | error e => exact .error (h e rfl)
  | ok a => exact .ok a

end FailsOnly

theorem check_bind_eq_ok_iff (x : Except ε PUnit) (f : PUnit → Except ε β) (b : β) :
    (x >>= f) = .ok b ↔ x = .ok ⟨⟩ ∧ f ⟨⟩ = .ok b := by
  rw [bind_eq_ok_iff]
  exact ⟨fun ⟨_, done, next⟩ => ⟨done, next⟩, fun ⟨done, next⟩ => ⟨_, done, next⟩⟩

theorem forM_eq_ok_iff (xs : List α) (f : α → Except ε PUnit) :
    xs.forM f = .ok ⟨⟩ ↔ ∀ x ∈ xs, f x = .ok ⟨⟩ := by
  induction xs with
  | nil => exact ⟨fun _ _ h => (nomatch h), fun _ => rfl⟩
  | cons x xs ih =>
      rw [List.forall_mem_cons, ← ih]
      exact check_bind_eq_ok_iff (f x) _ _

/-- A step that keeps a condition keeps it through a whole fold, if the fold succeeds. -/
theorem foldlM_invariant {P : α → Prop} {f : α → β → Except ε α} {xs : List β}
    (keeps : ∀ a x b, P a → f a x = .ok b → P b) {a b : α} (ha : P a)
    (h : xs.foldlM f a = .ok b) : P b := by
  induction xs generalizing a with
  | nil =>
      cases h
      exact ha
  | cons x xs ih =>
      rw [List.foldlM_cons, bind_eq_ok_iff] at h
      obtain ⟨c, hc, h⟩ := h
      exact ih (keeps a x c ha hc) h

/-- Says that two computations fail with the same error, or succeed with related results. -/
inductive Related (R : α → β → Prop) : Except ε α → Except ε β → Prop where
  | error (e : ε) : Related R (.error e) (.error e)
  | ok {a : α} {b : β} (h : R a b) : Related R (.ok a) (.ok b)

theorem Related.bind {γ δ : Type v} {R : α → β → Prop} {S : γ → δ → Prop} {x : Except ε α}
    {y : Except ε β} {f : α → Except ε γ} {g : β → Except ε δ} (h : Related R x y)
    (next : ∀ a b, R a b → Related S (f a) (g b)) : Related S (x >>= f) (y >>= g) := by
  cases h with
  | error e => exact .error e
  | ok h => exact next _ _ h

/-- Two computations that begin alike are related if what follows is. -/
theorem Related.bind_same {γ δ : Type v} {S : γ → δ → Prop} (x : Except ε α)
    {f : α → Except ε γ} {g : α → Except ε δ} (next : ∀ a, Related S (f a) (g a)) :
    Related S (x >>= f) (x >>= g) := by
  cases x with
  | error e => exact .error e
  | ok a => exact next a

theorem Related.mapError {ε' : Type u} {R : α → β → Prop} {x : Except ε α} {y : Except ε β}
    (h : Related R x y) (f : ε → ε') : Related R (x.mapError f) (y.mapError f) := by
  cases h with
  | error e => exact .error (f e)
  | ok h => exact .ok h

end WordGraph.Except
