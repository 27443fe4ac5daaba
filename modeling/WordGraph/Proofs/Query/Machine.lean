import Mathlib.Data.List.Basic
import WordGraph.Proofs.Failure
import WordGraph.Proofs.Query.Token
import WordGraph.Query.Statement

/-!
The state machine of statements, one token at a time: what each action makes of a draft whose last
command is open, when a step succeeds, and that reading a statement is taking its tokens in turn.
-/

namespace WordGraph

namespace Draft

variable {cs : List Command} {c : Command} {b : Bool}

theorem editCommand_concat (f : Command → Except StatementFault Command) :
    editCommand ⟨cs ++ [c], b⟩ f = (f c).map fun c' => ⟨cs ++ [c'], b⟩ := by
  rw [editCommand, editLast_concat]
  cases f c <;> rfl

theorem apply_openPattern (role : Role) (t : Token) :
    apply ⟨cs ++ [c], false⟩ (.openPattern role) t =
      .ok ⟨cs ++ [{ c with patterns := c.patterns ++ [⟨role, "", ∅⟩] }], false⟩ := by
  simp only [apply, editCommand_concat]
  rfl

theorem apply_bindIdentifier (ps : List Pattern) (p : Pattern) (w : String) :
    apply ⟨cs ++ [{ c with patterns := ps ++ [p] }], b⟩ .bindIdentifier (.name w) =
      .ok ⟨cs ++ [{ c with patterns := ps ++ [{ p with identifier := w }] }], b⟩ := by
  simp only [apply, editPattern, editCommand_concat, editLast_concat]
  rfl

theorem apply_appendPredicate {p : Pattern} (last : c.patterns.getLast? = some p) (key : String)
    (comparison : Comparison) (threshold : String) :
    apply ⟨cs ++ [c], b⟩ .appendPredicate (.predicate key comparison threshold) =
      .ok ⟨cs ++ [{ c with
        predicates := c.predicates ++ [.predicate ⟨key, comparison, threshold, p.identifier⟩] }],
        false⟩ := by
  simp only [apply, editCommand_concat, appendPredicate, last]
  rfl

theorem apply_appendCombinator {w : String} {combinator : Combinator}
    (found : Combinator.ofWord? w = some combinator) :
    apply ⟨cs ++ [c], false⟩ .appendCombinator (.name w) =
      .ok ⟨cs ++ [{ c with predicates := c.predicates ++ [.combinator combinator] }], true⟩ := by
  simp only [apply, found, editCommand_concat]
  rfl

theorem apply_chainCommand :
    apply ⟨cs, false⟩ .chainCommand (.keyword .returning) =
      .ok ⟨cs ++ [{ keyword := .returning }], false⟩ := rfl

theorem flagOf_eq_ok_iff (role : Role) (key value : String) (flag : Option Bool) :
    flagOf role key value = .ok flag ↔
      (role = .bool → key = boolKey ∧ (value = "0" ∨ value = "1")) ∧
        flag = if role = .bool then some (decide (value = "1")) else none := by
  by_cases bool : role = .bool
  · by_cases named : key = boolKey
    · by_cases zero : value = "0"
      · subst zero
        simp [flagOf, bool, named, eq_comm]
      · by_cases one : value = "1"
        · subst one
          simp [flagOf, bool, named, eq_comm]
        · simp [flagOf, bool, named, zero, one]
    · simp [flagOf, bool, named]
  · simp [flagOf, bool, eq_comm]

theorem flagOf_failsOnly {P : StatementFault → Prop} (badKey : P .boolKey)
    (badValue : ∀ value, P (.boolValue value)) (role : Role) (key value : String) :
    Except.FailsOnly P (flagOf role key value) := by
  rw [flagOf]
  split_ifs
  · exact .ok none
  · exact .error badKey
  · exact .ok _
  · exact .ok _
  · exact .error (badValue value)

theorem insertPair_eq_ok_iff {ps : List Pattern} {p : Pattern} (patterns : c.patterns = ps ++ [p])
    (key value : String) (c' : Command) : insertPair key value c = .ok c' ↔
      (p.role = .bool → key = boolKey ∧ (value = "0" ∨ value = "1")) ∧
        ∃ a, p.attributes.insert key value = .ok a ∧
          c' = { c with
            patterns := ps ++ [{ p with attributes := a }]
            flag := (if p.role = .bool then some (decide (value = "1")) else none).or c.flag } := by
  simp only [insertPair, patterns, List.getLast?_concat, List.dropLast_concat,
    Except.bind_eq_ok_iff, flagOf_eq_ok_iff, Except.mapError_eq_ok_iff]
  constructor
  · intro ⟨flag, ⟨permitted, same⟩, a, inserted, done⟩
    cases done
    exact ⟨permitted, a, inserted, by rw [same]⟩
  · intro ⟨permitted, a, inserted, done⟩
    exact ⟨_, ⟨permitted, rfl⟩, a, inserted, done ▸ rfl⟩

theorem apply_insertPair_eq_ok_iff (key value : String) (d : Draft) :
    apply ⟨cs ++ [c], false⟩ .insertPair (.pair key value) = .ok d ↔
      ∃ c', insertPair key value c = .ok c' ∧ d = ⟨cs ++ [c'], false⟩ := by
  have edited : apply ⟨cs ++ [c], false⟩ .insertPair (.pair key value) =
      (insertPair key value c).map fun c' => ⟨cs ++ [c'], false⟩ := editCommand_concat _
  rw [edited, Except.map_eq_ok_iff]
  exact exists_congr fun c' => and_congr_right fun _ => eq_comm

end Draft

theorem joins_iff (behind : Bool) (w : String) :
    (insidePattern behind (.name w)).2 ≠ .reject ↔
      behind = true ∧ (Combinator.ofWord? w).isSome = true := by
  cases behind <;> cases h : (Combinator.ofWord? w).isSome <;> simp [insidePattern, h]

namespace Statement

/-- One step of the machine, without the place and the kind of an error. -/
def advance (s : ParseState × Draft) (t : Token) : Option (ParseState × Draft) :=
  let (next, action) := transition s.1 t
  if action = .reject then none else (s.2.apply action t).toOption.map fun d => (next, d)

section Steps

variable {state next : ParseState} {d d' : Draft} {t : Token} {action : ParseAction}

theorem advance_eq (moves : transition state t = (next, action)) (kept : action ≠ .reject)
    (applied : d.apply action t = .ok d') : advance (state, d) t = some (next, d') := by
  simp [advance, moves, kept, applied, Except.toOption]

theorem advance_eq_some_iff (s : ParseState × Draft) : advance (state, d) t = some s ↔
    (transition state t).2 ≠ .reject ∧ (transition state t).1 = s.1 ∧
      d.apply (transition state t).2 t = .ok s.2 := by
  rw [advance]
  obtain ⟨next, action⟩ := transition state t
  obtain ⟨other, d'⟩ := s
  by_cases rejected : action = .reject
  · simp [rejected]
  · cases applied : d.apply action t <;> simp [rejected, applied, Except.toOption]

end Steps

theorem step_eq_ok_iff (position : Nat) (state : ParseState) (draft : Draft) (w : String)
    (s : ParseState × Draft) :
    step position state draft w = .ok s ↔ advance (state, draft) (Token.ofWord w) = some s := by
  rw [step, advance]
  obtain ⟨next, action⟩ := transition state (Token.ofWord w)
  by_cases rejected : action = .reject
  · simp [rejected]
  · cases applied : draft.apply action (Token.ofWord w) <;>
      simp [rejected, applied, Except.toOption, Except.map, Except.mapError]

theorem ne_done_of_transition (state : ParseState) {t : Token} (other : t ≠ .terminator) :
    (transition state t).1 ≠ .done := by
  cases t with
  | terminator => exact absurd rfl other
  | marker role => cases state <;> cases role <;> exact nofun
  | name w =>
      cases state with
      | predicate =>
          cases combines : (Combinator.ofWord? w).isSome <;> simp [transition, insidePattern, combines]
      | _ => exact nofun
  | _ => cases state <;> exact nofun

theorem ne_done_of_advance {state next : ParseState} {draft d : Draft} {t : Token}
    (other : t ≠ .terminator) (moved : advance (state, draft) t = some (next, d)) : next ≠ .done := by
  have stands : (transition state t).1 = next := ((advance_eq_some_iff _).1 moved).2.1
  exact stands ▸ ne_done_of_transition state other

/-- Reading the words before a semicolon takes them in turn; the semicolon then has to be taken too. -/
theorem run_concat_iff {ws : List String} (h : ";" ∉ ws) (position : Nat) (state : ParseState)
    (draft : Draft) (cs : List Command) :
    run position state draft (ws ++ [";"]) = .ok cs ↔
      ∃ s next d, (ws.map Token.ofWord).foldlM advance (state, draft) = some s ∧
        advance s .terminator = some (next, d) ∧ d.commands = cs := by
  induction ws generalizing position state draft with
  | nil =>
      rw [List.nil_append, run, Except.bind_eq_ok_iff]
      constructor
      · intro ⟨⟨next, d⟩, stepped, done⟩
        have closed := (step_eq_ok_iff position state draft ";" (next, d)).1 stepped
        refine ⟨(state, draft), next, d, rfl, closed, ?_⟩
        by_cases last : next = .done
        · simpa [last, pure, Except.pure] using done
        · simpa [last, run] using done
      · intro ⟨s, next, d, same, closed, commands⟩
        cases same
        refine ⟨(next, d), (step_eq_ok_iff position state draft ";" (next, d)).2 closed, ?_⟩
        by_cases last : next = .done
        · simpa [last, pure, Except.pure] using commands
        · simpa [last, run] using commands
  | cons w ws ih =>
      rw [List.mem_cons, not_or] at h
      have other : Token.ofWord w ≠ .terminator := fun e =>
        h.1 ((Token.ofWord_eq_terminator_iff w).1 e).symm
      rw [List.cons_append, run, Except.bind_eq_ok_iff, List.map_cons, List.foldlM_cons]
      simp only [Option.bind_eq_bind, Option.bind_eq_some_iff]
      constructor
      · intro ⟨⟨next, d⟩, stepped, done⟩
        have moved := (step_eq_ok_iff position state draft w (next, d)).1 stepped
        have open_state := ne_done_of_advance other moved
        simp only [open_state, if_false] at done
        obtain ⟨s, last, final, consumed, closed, commands⟩ := (ih h.2 _ _ _).1 done
        exact ⟨s, last, final, ⟨_, moved, consumed⟩, closed, commands⟩
      · intro ⟨s, last, final, ⟨⟨next, d⟩, moved, consumed⟩, closed, commands⟩
        have open_state := ne_done_of_advance other moved
        refine ⟨(next, d), (step_eq_ok_iff position state draft w (next, d)).2 moved, ?_⟩
        simp only [open_state, if_false]
        exact (ih h.2 _ _ _).2 ⟨s, last, final, consumed, closed, commands⟩

end Statement
end WordGraph
