import Mathlib.Data.List.Basic
import WordGraph.Query.Statement

/-!
Statements of a longer input. Words that end with a semicolon leave no statement open, so the words
behind them are split and read as if they stood alone; only the positions in their errors move.
-/

namespace WordGraph

/-- The same error when `n` more words stand before it. -/
def ParseError.moved (n : Nat) : ParseError → ParseError
  | .unknownWord w position => .unknownWord w (n + position)
  | .malformed position fault => .malformed (n + position) fault

namespace Statement

/-- Says that no statement is left open behind these words. -/
def Closed (ws : List String) : Prop := ws = [] ∨ ws.getLast? = some ";"

instance (ws : List String) : Decidable (Closed ws) :=
  inferInstanceAs (Decidable (ws = [] ∨ ws.getLast? = some ";"))

section Splitting

variable {body u ws : List String}

/-- Words are taken statement by statement, until there is no semicolon among them. -/
@[elab_as_elim]
theorem words_induction {P : List String → Prop} (ws : List String)
    (unfinished : ∀ ws, ";" ∉ ws → P ws)
    (statement : ∀ body ws, ";" ∉ body → P ws → P (body ++ ";" :: ws)) : P ws := by
  by_cases h : ";" ∈ ws
  · obtain ⟨body, rest, same, first⟩ := List.eq_append_cons_of_mem h
    have shorter : rest.length < ws.length := by
      rw [same, List.length_append, List.length_cons]
      omega
    rw [same]
    exact statement body rest first (words_induction rest unfinished statement)
  · exact unfinished ws h
termination_by ws.length

theorem closed_iff_of_not_mem (h : ";" ∉ ws) : Closed ws ↔ ws = [] := by
  constructor
  · intro closed
    cases closed with
    | inl nil => exact nil
    | inr last => exact absurd (List.mem_of_getLast? last) h
  · exact Or.inl

theorem closed_statement_iff (body ws : List String) : Closed (body ++ ";" :: ws) ↔ Closed ws := by
  cases last : ws.getLast? with
  | none => simp [Closed, List.getLast?_append, List.getLast?_cons, List.getLast?_eq_none_iff.1 last]
  | some w =>
      have some : ws ≠ [] := fun nil => by simp [nil] at last
      simp [Closed, List.getLast?_append, List.getLast?_cons, last, some]

theorem split_of_not_mem (h : ";" ∉ ws) : split ws = ([], ws) := by
  induction ws with
  | nil => rfl
  | cons w ws ih =>
      rw [List.mem_cons, not_or] at h
      rw [split, ih h.2]
      exact if_neg (Ne.symm h.1)

theorem split_statement (h : ";" ∉ body) (ws : List String) :
    split (body ++ ";" :: ws) = ((body ++ [";"]) :: (split ws).1, (split ws).2) := by
  induction body with
  | nil => rfl
  | cons w body ih =>
      rw [List.mem_cons, not_or] at h
      rw [List.cons_append, split, ih h.2]
      exact if_neg (Ne.symm h.1)

theorem flatten_split (ws : List String) : (split ws).1.flatten ++ (split ws).2 = ws := by
  induction ws using words_induction with
  | unfinished ws h => rw [split_of_not_mem h, List.flatten_nil, List.nil_append]
  | statement body ws h ih =>
      rw [split_statement h, List.flatten_cons, List.append_assoc, ih, List.append_assoc,
        List.singleton_append]

theorem length_split (ws : List String) : (split ws).1.length = ws.count ";" := by
  induction ws using words_induction with
  | unfinished ws h => rw [split_of_not_mem h, List.count_eq_zero.2 h, List.length_nil]
  | statement body ws h ih =>
      rw [split_statement h, List.length_cons, ih, List.count_append, List.count_eq_zero.2 h,
        List.count_cons_self, Nat.zero_add]

theorem split_snd_eq_nil_iff (ws : List String) : (split ws).2 = [] ↔ Closed ws := by
  induction ws using words_induction with
  | unfinished ws h => rw [split_of_not_mem h, closed_iff_of_not_mem h]
  | statement body ws h ih => rw [split_statement h, closed_statement_iff, ih]

theorem split_append (closed : Closed u) (v : List String) :
    split (u ++ v) = ((split u).1 ++ (split v).1, (split v).2) := by
  induction u using words_induction with
  | unfinished u h =>
      rw [(closed_iff_of_not_mem h).1 closed]
      rfl
  | statement body u h ih =>
      rw [List.append_assoc, List.cons_append, split_statement h,
        ih ((closed_statement_iff body u).1 closed), split_statement h, List.cons_append]

end Splitting

section Moving

theorem rejectionAt_moved (n position : Nat) (state : ParseState) (t : Token) :
    rejectionAt (n + position) state t = (rejectionAt position state t).moved n := by
  cases t <;> rfl

theorem step_moved (n position : Nat) (state : ParseState) (draft : Draft) (w : String) :
    step (n + position) state draft w = (step position state draft w).mapError (.moved n) := by
  simp only [step]
  split
  · rw [rejectionAt_moved]
    rfl
  · cases draft.apply (transition state (Token.ofWord w)).2 (Token.ofWord w) <;> rfl

theorem run_moved (n position : Nat) (state : ParseState) (draft : Draft) (ws : List String) :
    run (n + position) state draft ws = (run position state draft ws).mapError (.moved n) := by
  induction ws generalizing position state draft with
  | nil => rfl
  | cons w ws ih =>
      rw [run, run, step_moved]
      cases step position state draft w with
      | error e => rfl
      | ok next =>
          obtain ⟨state, draft⟩ := next
          by_cases last : state = .done
          · subst last
            rfl
          · have onward := ih (position + 1) state draft
            simpa [bind, Except.bind, Except.mapError, last, Nat.add_assoc] using onward

theorem read_moved (n offset : Nat) (ws : List String) :
    read (n + offset) ws = (read offset ws).mapError (.moved n) := by
  rw [read, read, Nat.add_assoc]
  exact run_moved n (offset + 1) .start {} ws

theorem readAll_moved (n offset : Nat) (statements : List (List String)) :
    readAll (n + offset) statements =
      (readAll offset statements).map fun r => r.mapError (.moved n) := by
  induction statements generalizing offset with
  | nil => rfl
  | cons s more ih => rw [readAll, readAll, read_moved, Nat.add_assoc, ih, List.map_cons]

theorem readAll_append (offset : Nat) (first more : List (List String)) :
    readAll offset (first ++ more) =
      readAll offset first ++ readAll (offset + first.flatten.length) more := by
  induction first generalizing offset with
  | nil => rfl
  | cons s first ih =>
      rw [List.cons_append, readAll, readAll, ih, List.cons_append, List.flatten_cons,
        List.length_append, Nat.add_assoc]

theorem length_readAll (offset : Nat) (statements : List (List String)) :
    (readAll offset statements).length = statements.length := by
  induction statements generalizing offset with
  | nil => rfl
  | cons s more ih => rw [readAll, List.length_cons, ih, List.length_cons]

end Moving

theorem parse_of_closed {u : List String} (closed : Closed u) : parse u = readAll 0 (split u).1 := by
  simp [parse, (split_snd_eq_nil_iff u).2 closed]

/-- What stands behind closed words is read as if it stood alone. -/
theorem parse_append {u : List String} (closed : Closed u) (v : List String) :
    parse (u ++ v) = parse u ++ (parse v).map fun r => r.mapError (.moved u.length) := by
  have whole : (split u).1.flatten.length = u.length := by
    have same := congrArg List.length (flatten_split u)
    rwa [(split_snd_eq_nil_iff u).2 closed, List.append_nil] at same
  have behind : readAll u.length (split v).1 =
      (readAll 0 (split v).1).map fun r => r.mapError (.moved u.length) :=
    readAll_moved u.length 0 (split v).1
  rw [parse_of_closed closed, parse, split_append closed, parse]
  simp only [readAll_append, Nat.zero_add, whole, behind, List.map_append, List.append_assoc]
  congr 2
  split
  · rfl
  · rw [List.length_append]
    rfl

theorem length_parse (ws : List String) :
    (parse ws).length = ws.count ";" + if Closed ws then 0 else 1 := by
  rw [parse]
  simp only [List.length_append, length_readAll, length_split, List.isEmpty_iff,
    split_snd_eq_nil_iff]
  by_cases closed : Closed ws
  · rw [if_pos closed, if_pos closed]
    rfl
  · rw [if_neg closed, if_neg closed]
    rfl

/-- Says of a part of words that it is all of one statement but its semicolon. -/
structure Stands (ws before body after : List String) : Prop where
  words_eq : ws = before ++ (body ++ ";" :: after)
  closed : Closed before
  plain : ";" ∉ body

section Standing

variable {ws before body after : List String}

theorem exists_stands {i : Nat} (inside : i < ws.count ";") :
    ∃ before body after, Stands ws before body after ∧ before.count ";" = i := by
  induction ws using words_induction generalizing i with
  | unfinished ws h =>
      rw [List.count_eq_zero.2 h] at inside
      exact absurd inside (Nat.not_lt_zero i)
  | statement body ws h ih =>
      cases i with
      | zero => exact ⟨[], body, ws, ⟨rfl, .inl rfl, h⟩, rfl⟩
      | succ i =>
          rw [List.count_append, List.count_eq_zero.2 h, List.count_cons_self] at inside
          obtain ⟨before, other, after, stands, count⟩ := ih (i := i) (by omega)
          refine ⟨body ++ ";" :: before, other, after, ⟨?_, ?_, stands.plain⟩, ?_⟩
          · rw [stands.words_eq, List.append_assoc, List.cons_append]
          · exact (closed_statement_iff body before).2 stands.closed
          · rw [List.count_append, List.count_eq_zero.2 h, List.count_cons_self, count, Nat.zero_add]

/-- The statement behind some others is read in its turn, behind their words. -/
theorem Stands.parse_eq (h : Stands ws before body after) :
    (parse ws)[before.count ";"]? = some (read before.length (body ++ [";"])) := by
  obtain ⟨more, first⟩ : ∃ more, parse (body ++ ";" :: after) = read 0 (body ++ [";"]) :: more := by
    rw [parse, split_statement h.plain]
    exact ⟨_, rfl⟩
  have length : (parse before).length = before.count ";" := by
    rw [length_parse, if_pos h.closed, Nat.add_zero]
  rw [h.words_eq, parse_append h.closed, List.getElem?_append_right (Nat.le_of_eq length), length,
    Nat.sub_self, first, List.map_cons, List.getElem?_cons_zero]
  exact congrArg some (read_moved before.length 0 _).symm

/-- What is read of an input comes from one of its statements, or says that the last is not finished. -/
theorem stands_of_parse {i : Nat} {r : Except ParseError (List Command)}
    (found : (parse ws)[i]? = some r) :
    (∃ before body after, Stands ws before body after ∧ before.count ";" = i) ∨
      r = .error (.malformed ws.length .unterminated) := by
  by_cases inside : i < ws.count ";"
  · exact .inl (exists_stands inside)
  · refine .inr ?_
    have length : (readAll 0 (split ws).1).length = ws.count ";" := by
      rw [length_readAll, length_split]
    rw [parse, List.getElem?_append_right (by omega)] at found
    have last := List.mem_of_getElem? found
    split at last
    · cases last
    · exact List.mem_singleton.1 last

end Standing
end Statement
end WordGraph
