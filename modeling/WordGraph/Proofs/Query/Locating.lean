import WordGraph.Proofs.Query.Parsing
import WordGraph.Proofs.Query.Splitting

/-!
Where a malformed statement is said to go wrong. The words before the place that an error names can be
completed to a statement that is accepted, and with the word at that place they cannot: the machine
takes a word exactly if a derivation goes on with it, and every derivation can be closed.
-/

namespace WordGraph

def ParseError.position : ParseError → Nat
  | .unknownWord _ position => position
  | .malformed position _ => position

/-- The faults that would say that the machine and the draft do not fit together, and a mere text. -/
def StatementFault.Internal : StatementFault → Prop
  | .noOpenCommand | .noOpenPattern | .inapplicable | .described _ => True
  | _ => False

/-- The faults for which an action refuses a token that the table has let pass. -/
inductive StatementFault.Refusal : StatementFault → Prop where
  | danglingCombinator : Refusal .danglingCombinator
  | notChainable (k : Keyword) : Refusal (.notChainable k)
  | boolKey : Refusal .boolKey
  | boolValue (value : String) : Refusal (.boolValue value)
  | badPair (fault : AttributeFault) : Refusal (.badPair fault)

theorem StatementFault.Refusal.not_internal {f : StatementFault} (h : f.Refusal) : ¬f.Internal := by
  cases h <;> exact id

theorem rejection_not_internal (state : ParseState) (t : Token) : ¬(rejection state t).Internal := by
  cases state <;> cases t <;> exact id

namespace Draft

variable {cs : List Command} {c : Command} {f : StatementFault}

/-- A pair is refused for what it says, if there is a pattern that could take it. -/
theorem insertPair_refuses {ps : List Pattern} {p : Pattern} (patterns : c.patterns = ps ++ [p])
    (key value : String) : Except.FailsOnly StatementFault.Refusal (insertPair key value c) := by
  have stored : Except.FailsOnly StatementFault.Refusal
      ((p.attributes.insert key value).mapError .badPair) :=
    .mapError fun fault _ => .badPair fault
  rw [insertPair, patterns, List.getLast?_concat]
  exact (flagOf_failsOnly .boolKey .boolValue p.role key value).bind fun flag => stored.bind fun a => .ok _

theorem refusal_of_chainCommand {k : Keyword}
    (failed : apply ⟨cs, false⟩ .chainCommand (.keyword k) = .error f) : f.Refusal := by
  by_cases returning : k = .returning
  · subst returning
    cases failed
  · have refused : apply ⟨cs, false⟩ .chainCommand (.keyword k) = .error (.notChainable k) := by
      simp [apply, checkComplete, returning, bind, Except.bind, throw, throwThe, MonadExceptOf.throw]
    exact Except.error.inj (refused.symm.trans failed) ▸ .notChainable k

end Draft

namespace Grammar.Partial

open Statement

variable {d : Partial} {t : Token} {f : StatementFault}

theorem refusal_inside {e : List CommandTree} {k : Keyword} {ps : List PatternTree} {p : PatternTree}
    (failed : (Partial.inside e k ps p).draft.apply (transition p.state t).2 t = .error f) :
    f.Refusal := by
  rw [transition_inside] at failed
  cases t with
  | marker role => cases (Draft.apply_openPattern role _).symm.trans failed
  | pair key value =>
      have edited : (Partial.inside e k ps p).draft.apply .insertPair (.pair key value) =
          (Draft.insertPair key value (CommandTree.mk k (ps ++ [p])).command).map
            fun c => ⟨e.map CommandTree.command ++ [c], false⟩ := Draft.editCommand_concat _
      have refused := Draft.insertPair_refuses (CommandTree.patterns_concat k ps p) key value
      exact refused.map _ f (edited.symm.trans failed)
  | predicate key comparison threshold =>
      have last := CommandTree.last_pattern k ps p
      cases (Draft.apply_appendPredicate last key comparison threshold).symm.trans failed
  | keyword next => exact Draft.refusal_of_chainCommand failed
  | terminator | unknown w => cases failed
  | name w =>
      rw [insidePattern] at failed
      split at failed
      · rename_i joins
        obtain ⟨combinator, found⟩ := Option.isSome_iff_exists.1 (Bool.and_eq_true_iff.1 joins).2
        cases (Draft.apply_appendCombinator found).symm.trans failed
      · cases failed

/-- What a derivation does not take is not taken for a reason that the words give. -/
theorem refusal_of_apply (failed : d.draft.apply (transition d.state t).2 t = .error f) :
    f.Refusal := by
  cases d with
  | start => cases t <;> cases failed
  | opened e k =>
      cases t with
      | marker role => cases (Draft.apply_openPattern role _).symm.trans failed
      | _ => cases failed
  | marked e k ps role =>
      cases t with
      | name w =>
          have action : (transition role.state (.name w)).2 = .bindIdentifier := by cases role <;> rfl
          rw [state, action] at failed
          cases (Draft.apply_bindIdentifier _ _ w).symm.trans failed
      | _ => cases role <;> cases failed
  | inside e k ps p => exact refusal_inside failed
  | joining e k ps p first rest w =>
      cases t with
      | predicate key comparison threshold =>
          have last : ({ (CommandTree.mk k (ps ++ [p.add (.clauses first rest)])).command with
              predicates := (CommandTree.mk k (ps ++ [p.add (.clauses first rest)])).command.predicates ++
                [joint w] } : Command).patterns.getLast? = some (p.add (.clauses first rest)).pattern :=
            CommandTree.last_pattern k ps _
          cases (Draft.apply_appendPredicate last key comparison threshold).symm.trans failed
      | name v =>
          have moves : transition .predicate (.name v) = insidePattern true (.name v) := rfl
          rw [state, moves, insidePattern] at failed
          split at failed
          · cases failed
            exact .danglingCombinator
          · cases failed
      | unknown v => cases failed
      | _ =>
          cases failed
          exact .danglingCombinator

/-- Every derivation can be closed, with one more word at most. -/
theorem Builds.completed {ts : List Token} (built : Builds ts d) :
    ∃ more : List String, ";" ∉ more ∧
      ∃ d', Builds (ts ++ more.map Token.ofWord) d' ∧ d'.Closed := by
  have here (closed : d.Closed) : ∃ more : List String, ";" ∉ more ∧
      ∃ d', Builds (ts ++ more.map Token.ofWord) d' ∧ d'.Closed := by
    refine ⟨[], List.not_mem_nil, d, ?_, closed⟩
    rw [List.map_nil, List.append_nil]
    exact built
  cases d with
  | start | opened e k | inside e k ps p => exact here rfl
  | marked e k ps role =>
      have name : Token.ofWord "x" = .name "x" := by decide +kernel
      refine ⟨["x"], by decide, .inside e k ps ⟨role, "x", []⟩, ?_, rfl⟩
      rw [List.map_singleton, name]
      exact .concat built (.name e k ps role "x")
  | joining e k ps p first rest w =>
      let clause : Clause := ⟨"x", .greater, "1"⟩
      have compared : Token.ofWord "x>1" = clause.token := by decide +kernel
      refine ⟨["x>1"], by decide, .inside e k ps (p.add (.clauses first (rest ++ [(w, clause)]))), ?_,
        rfl⟩
      rw [List.map_singleton, compared]
      exact .concat built (.joined e k ps p first rest w clause)

end Grammar.Partial

namespace Statement

open Grammar

section Failing

variable {position : Nat} {state : ParseState} {draft : Draft} {w : String} {e : ParseError}

theorem advance_eq_none (failed : step position state draft w = .error e) :
    advance (state, draft) (Token.ofWord w) = none := by
  cases moved : advance (state, draft) (Token.ofWord w) with
  | none => rfl
  | some s =>
      have taken := (step_eq_ok_iff position state draft w s).2 moved
      cases taken.symm.trans failed

theorem step_of_unknown (failed : step position state draft w = .error e) {v : String}
    (unknown : Token.ofWord w = .unknown v) : e = .unknownWord w position := by
  obtain rfl := Token.eq_of_ofWord_unknown unknown
  rw [step, unknown] at failed
  cases state with
  | lost => cases failed
  | _ => exact (Except.error.inj failed).symm

theorem step_of_known (failed : step position state draft w = .error e)
    (known : ¬∃ v, Token.ofWord w = .unknown v) :
    ∃ fault, e = .malformed position fault ∧ (fault = rejection state (Token.ofWord w) ∨
      draft.apply (transition state (Token.ofWord w)).2 (Token.ofWord w) = .error fault) := by
  rw [step] at failed
  generalize Token.ofWord w = t at failed known ⊢
  dsimp only at failed
  split at failed
  · have same : rejectionAt position state t = .malformed position (rejection state t) := by
      cases t with
      | unknown v => exact absurd ⟨v, rfl⟩ known
      | _ => rfl
    exact ⟨_, (Except.error.inj failed).symm.trans same, .inl rfl⟩
  · cases applied : draft.apply (transition state t).2 t with
    | ok d =>
        rw [applied] at failed
        cases failed
    | error fault =>
        rw [applied] at failed
        exact ⟨fault, (Except.error.inj failed).symm, .inr rfl⟩

/-- A reading that fails has taken the words before one that it does not take. -/
theorem exists_step_of_run {ws : List String} (failed : run position state draft ws = .error e) :
    ∃ k w s, ws[k]? = some w ∧
      ((ws.take k).map Token.ofWord).foldlM advance (state, draft) = some s ∧
      step (position + k) s.1 s.2 w = .error e := by
  induction ws generalizing position state draft with
  | nil => cases failed
  | cons w ws ih =>
      rw [run] at failed
      cases stepped : step position state draft w with
      | error fault =>
          rw [stepped] at failed
          cases failed
          exact ⟨0, w, (state, draft), rfl, rfl, stepped⟩
      | ok next =>
          obtain ⟨state', draft'⟩ := next
          have moved := (step_eq_ok_iff position state draft w (state', draft')).1 stepped
          rw [stepped] at failed
          by_cases last : state' = .done
          · simp [last, bind, Except.bind, pure, Except.pure] at failed
          · simp only [bind, Except.bind, last, if_false] at failed
            obtain ⟨k, v, s, here, consumed, refused⟩ := ih failed
            refine ⟨k + 1, v, s, here, ?_, ?_⟩
            · rw [List.take_succ_cons, List.map_cons, List.foldlM_cons, moved]
              exact consumed
            · rw [← refused, Nat.add_assoc, Nat.add_comm 1 k]

end Failing

/-- Says that words can be completed to a statement that is accepted. -/
def Viable (ws : List String) : Prop :=
  ∃ body cs, ";" ∉ body ∧ ws <+: body ++ [";"] ∧ parse (body ++ [";"]) = [.ok cs]

section Completing

variable {ws body : List String}

theorem parse_single (plain : ";" ∉ body) : parse (body ++ [";"]) = [read 0 (body ++ [";"])] := by
  rw [parse, split_statement plain]
  rfl

/-- Words without a semicolon can be completed if the machine takes them. -/
theorem viable_iff (plain : ";" ∉ ws) :
    Viable ws ↔ ∃ s, (ws.map Token.ofWord).foldlM advance (.start, {}) = some s := by
  constructor
  · intro ⟨body, cs, whole, front, accepted⟩
    rw [parse_single whole] at accepted
    obtain ⟨s, _, _, consumed, _⟩ := (run_concat_iff whole ..).1 (List.singleton_inj.1 accepted)
    cases List.prefix_concat_iff.1 front with
    | inl same => exact absurd (same ▸ by simp) plain
    | inr inside =>
        obtain ⟨more, rfl⟩ := inside
        rw [List.map_append, List.foldlM_append, Option.bind_eq_bind,
          Option.bind_eq_some_iff] at consumed
        obtain ⟨s, taken, _⟩ := consumed
        exact ⟨s, taken⟩
  · intro ⟨s, taken⟩
    obtain ⟨d, built, _⟩ := (consume_eq_some_iff plain s).1 taken
    obtain ⟨more, free, d', closed_by, closed⟩ := built.completed
    rw [← List.map_append] at closed_by
    obtain ⟨wf, spelled⟩ := (Partial.exists_builds_closed_iff _ d'.trees).1 ⟨d', closed_by, closed, rfl⟩
    have whole : ";" ∉ ws ++ more := by
      rw [List.mem_append, not_or]
      exact ⟨plain, free⟩
    refine ⟨ws ++ more, d'.trees.map CommandTree.command, whole,
      ⟨more ++ [";"], (List.append_assoc ..).symm⟩, ?_⟩
    rw [parse_single whole, (read_concat_iff whole 0 _).2 ⟨d'.trees, ⟨wf, spelled⟩, rfl⟩]

theorem accepted_of_viable (viable : Viable (body ++ [";"])) :
    ∃ cs, read 0 (body ++ [";"]) = .ok cs := by
  obtain ⟨whole, cs, free, front, accepted⟩ := viable
  rw [parse_single free] at accepted
  cases List.prefix_concat_iff.1 front with
  | inl same => exact ⟨cs, same ▸ List.singleton_inj.1 accepted⟩
  | inr inside => exact absurd (inside.subset (by simp)) free

end Completing

/-- Says of an error that it names the first impossible word of a statement, which stands behind `k`
others, and whether that is because the word is no token. -/
structure Locates (before body : List String) (e : ParseError) (k : Nat) (w : String) : Prop where
  position_eq : e.position = before.length + k + 1
  word : (body ++ [";"])[k]? = some w
  viable : Viable ((body ++ [";"]).take k)
  impossible : ¬Viable ((body ++ [";"]).take (k + 1))
  unknown_iff : e = .unknownWord w e.position ↔ ∃ v, Token.ofWord w = .unknown v
  malformed_iff : (∃ fault, e = .malformed e.position fault) ↔ ¬∃ v, Token.ofWord w = .unknown v

section Locating

variable {before body : List String} {e : ParseError}

/-- With the word at which a reading fails no statement goes on. -/
theorem not_viable_of_step (plain : ";" ∉ body) {offset k : Nat} {w : String} {s : ParseState × Draft}
    (failed : read offset (body ++ [";"]) = .error e) (here : (body ++ [";"])[k]? = some w)
    (consumed : (((body ++ [";"]).take k).map Token.ofWord).foldlM advance (.start, {}) = some s)
    (refused : advance s (Token.ofWord w) = none) : ¬Viable ((body ++ [";"]).take (k + 1)) := by
  intro viable
  have longer : (body ++ [";"]).take (k + 1) = (body ++ [";"]).take k ++ [w] := by
    rw [List.take_add_one, here]
    rfl
  by_cases inside : k < body.length
  · have free : ";" ∉ (body ++ [";"]).take (k + 1) := by
      rw [List.take_append_of_le_length inside]
      exact fun mem => plain (List.mem_of_mem_take mem)
    obtain ⟨s', taken⟩ := (viable_iff free).1 viable
    rw [longer, List.map_append, List.foldlM_append, consumed] at taken
    simp [refused] at taken
  · have whole : (body ++ [";"]).take (k + 1) = body ++ [";"] := by
      rw [List.take_of_length_le]
      rw [List.length_append, List.length_singleton]
      omega
    obtain ⟨cs, accepted⟩ := accepted_of_viable (whole ▸ viable)
    rw [← Nat.add_zero offset, read_moved, accepted] at failed
    cases failed

theorem exists_locates (plain : ";" ∉ body)
    (failed : read before.length (body ++ [";"]) = .error e) : ∃ k w, Locates before body e k w := by
  obtain ⟨k, w, s, here, consumed, refused⟩ := exists_step_of_run failed
  have bound := (List.getElem?_eq_some_iff.1 here).1
  rw [List.length_append, List.length_singleton] at bound
  have free : ";" ∉ (body ++ [";"]).take k := by
    rw [List.take_append_of_le_length (Nat.le_of_lt_succ bound)]
    exact fun mem => plain (List.mem_of_mem_take mem)
  have place : before.length + 1 + k = before.length + k + 1 := Nat.add_right_comm ..
  have viable := (viable_iff free).2 ⟨s, consumed⟩
  have impossible := not_viable_of_step plain failed here consumed (advance_eq_none refused)
  refine ⟨k, w, ?_⟩
  by_cases unknown : ∃ v, Token.ofWord w = .unknown v
  · obtain ⟨v, token⟩ := unknown
    have same := step_of_unknown refused token
    subst same
    exact ⟨place, here, viable, impossible, ⟨fun _ => ⟨v, token⟩, fun _ => rfl⟩,
      ⟨fun ⟨_, other⟩ => (nomatch other), fun known => absurd ⟨v, token⟩ known⟩⟩
  · obtain ⟨fault, same, _⟩ := step_of_known refused unknown
    subst same
    exact ⟨place, here, viable, impossible, ⟨nofun, fun token => absurd token unknown⟩,
      ⟨fun _ => unknown, fun _ => ⟨fault, rfl⟩⟩⟩

theorem not_internal_of_read (plain : ";" ∉ body) {offset position : Nat} {fault : StatementFault}
    (failed : read offset (body ++ [";"]) = .error (.malformed position fault)) : ¬fault.Internal := by
  obtain ⟨k, w, s, here, consumed, refused⟩ := exists_step_of_run failed
  have bound := (List.getElem?_eq_some_iff.1 here).1
  rw [List.length_append, List.length_singleton] at bound
  rw [List.take_append_of_le_length (Nat.le_of_lt_succ bound)] at consumed
  obtain ⟨d, _, rfl⟩ := (consume_eq_some_iff (fun mem => plain (List.mem_of_mem_take mem)) s).1 consumed
  have known : ¬∃ v, Token.ofWord w = .unknown v := fun ⟨v, token⟩ =>
    nomatch step_of_unknown refused token
  obtain ⟨_, same, rejected | unfit⟩ := step_of_known refused known
  · cases same
    exact rejected ▸ rejection_not_internal _ _
  · cases same
    exact (Partial.refusal_of_apply unfit).not_internal

end Locating

/-- The error of a malformed statement names the first word with which no accepted statement begins, and
tells a word that is no token from one in a wrong place. No error says that the parser has lost track
of its own state. -/
theorem parse_locates (ws : List String) :
    (∀ before body after e, Stands ws before body after →
      (parse ws)[before.count ";"]? = some (.error e) →
        ∃ k w, Locates before body e k w ∧ ws[e.position - 1]? = some w) ∧
    ∀ position fault, .error (.malformed position fault) ∈ parse ws → ¬fault.Internal := by
  constructor
  · intro before body after e stands failed
    rw [stands.parse_eq, Option.some.injEq] at failed
    obtain ⟨k, w, locates⟩ := exists_locates stands.plain failed
    have bound := (List.getElem?_eq_some_iff.1 locates.word).1
    refine ⟨k, w, locates, ?_⟩
    have whole : ws = before ++ ((body ++ [";"]) ++ after) := by
      rw [stands.words_eq, List.append_assoc, List.singleton_append]
    rw [whole, locates.position_eq, Nat.add_sub_cancel, List.getElem?_append_right (Nat.le_add_right ..),
      Nat.add_sub_cancel_left, List.getElem?_append_left bound]
    exact locates.word
  · intro position fault mem
    obtain ⟨i, found⟩ := List.mem_iff_getElem?.1 mem
    obtain ⟨before, body, after, stands, count⟩ | unfinished := stands_of_parse found
    · have failed := stands.parse_eq
      rw [count, found] at failed
      exact not_internal_of_read stands.plain (Option.some.inj failed).symm
    · cases unfinished
      exact id

/-- The predicate that an AND waits for is missing in the second statement of an input. -/
theorem parse_locates_dangling :
    ∃ k w, Locates ["SHOW", ";"] ["MATCH", "n:", "a", "x>1", "and", "n:", "b"]
        (.malformed 8 .danglingCombinator) k w ∧
      ["SHOW", ";", "MATCH", "n:", "a", "x>1", "and", "n:", "b", ";", "CLEAR", ";"][7]? = some w := by
  refine (parse_locates ["SHOW", ";", "MATCH", "n:", "a", "x>1", "and", "n:", "b", ";", "CLEAR", ";"]).1
    ["SHOW", ";"] ["MATCH", "n:", "a", "x>1", "and", "n:", "b"] ["CLEAR", ";"] _ ⟨rfl, ?_, ?_⟩ ?_
  · decide
  · decide
  · decide +kernel

end Statement
end WordGraph
