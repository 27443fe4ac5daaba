import Mathlib.Data.List.Induction
import WordGraph.Proofs.Query.Derivation
import WordGraph.Proofs.Query.Machine

/-!
The state machine of statements builds derivations. Its state and its draft are those of the partial
derivation that the words read so far build, so it accepts the words before a semicolon if they are
those of well-formed commands, and then gives the commands that these mean.
-/

namespace WordGraph

open Grammar

namespace Grammar

/-- The attributes that pairs leave behind; one that is refused is passed over. -/
def gather (pairs : List (String × String)) : Attributes :=
  pairs.foldl (fun a e => (a.insert e.1 e.2).toOption.getD a) ∅

def PatternTree.pattern (p : PatternTree) : Pattern := ⟨p.role, p.name, gather p.pairs⟩

def CommandTree.command (t : CommandTree) : Command where
  keyword := t.keyword
  patterns := t.patterns.map PatternTree.pattern
  predicates := t.patterns.flatMap PatternTree.predicates
  flag := (t.patterns.flatMap PatternTree.flags).getLast?

def PatternTree.state (p : PatternTree) : ParseState :=
  match p.items.getLast? with
  | none => .name
  | some (.pair _ _) => .pair
  | some (.clauses _ _) => .predicate

namespace Partial

def state : Partial → ParseState
  | .start => .start
  | .opened _ _ => .keyword
  | .marked _ _ _ role => role.state
  | .inside _ _ _ p => p.state
  | .joining _ _ _ _ _ _ _ => .predicate

/-- The draft of a derivation. A marker has opened a pattern without a name, and a joining word
stands behind the predicates. -/
def draft : Partial → Draft
  | .start => {}
  | .opened e k => ⟨e.map CommandTree.command ++ [(CommandTree.mk k []).command], false⟩
  | .marked e k ps role =>
      let c := (CommandTree.mk k ps).command
      ⟨e.map CommandTree.command ++ [{ c with patterns := c.patterns ++ [⟨role, "", ∅⟩] }], false⟩
  | .inside e k ps p => ⟨e.map CommandTree.command ++ [(CommandTree.mk k (ps ++ [p])).command], false⟩
  | .joining e k ps p first rest w =>
      let c := (CommandTree.mk k (ps ++ [p.add (.clauses first rest)])).command
      ⟨e.map CommandTree.command ++ [{ c with predicates := c.predicates ++ [joint w] }], true⟩

end Partial

section Commands

variable {k : Keyword} {ps : List PatternTree} {p : PatternTree}

theorem CommandTree.patterns_concat (k : Keyword) (ps : List PatternTree) (p : PatternTree) :
    (CommandTree.mk k (ps ++ [p])).command.patterns = ps.map PatternTree.pattern ++ [p.pattern] := by
  simp [CommandTree.command]

theorem CommandTree.last_pattern (k : Keyword) (ps : List PatternTree) (p : PatternTree) :
    (CommandTree.mk k (ps ++ [p])).command.patterns.getLast? = some p.pattern := by
  rw [patterns_concat, List.getLast?_concat]

theorem CommandTree.command_bare (role : Role) (w : String) :
    (CommandTree.mk k (ps ++ [⟨role, w, []⟩])).command =
      { (CommandTree.mk k ps).command with
        patterns := (CommandTree.mk k ps).command.patterns ++ [⟨role, w, ∅⟩] } := by
  simp [CommandTree.command, PatternTree.pattern, PatternTree.predicates, PatternTree.flags,
    PatternTree.pairs, gather]

theorem PatternTree.pairs_add (p : PatternTree) (i : Item) : (p.add i).pairs = p.pairs ++ i.pairs := by
  simp [PatternTree.pairs, PatternTree.add]

theorem PatternTree.predicates_add (p : PatternTree) (i : Item) :
    (p.add i).predicates = p.predicates ++ i.predicates p.name := by
  simp [PatternTree.predicates, PatternTree.add]

theorem PatternTree.flags_add (p : PatternTree) (i : Item) :
    (p.add i).flags =
      p.flags ++ if p.role = .bool then i.pairs.map fun e => decide (e.2 = "1") else [] := by
  have role : (p.add i).role = p.role := rfl
  rw [PatternTree.flags, PatternTree.flags, pairs_add, role]
  split
  · exact List.map_append ..
  · rfl

theorem PatternTree.pattern_add (p : PatternTree) (i : Item) :
    (p.add i).pattern = { p.pattern with attributes := gather (p.pairs ++ i.pairs) } := by
  rw [← pairs_add]
  rfl

theorem gather_concat {key value : String} {a : Attributes} {pairs : List (String × String)}
    (inserted : (gather pairs).insert key value = .ok a) : gather (pairs ++ [(key, value)]) = a := by
  rw [gather, List.foldl_concat]
  exact congrArg (fun x : Except AttributeFault Attributes => x.toOption.getD (gather pairs)) inserted

theorem CommandTree.command_add (i : Item) :
    (CommandTree.mk k (ps ++ [p.add i])).command =
      { (CommandTree.mk k (ps ++ [p])).command with
        patterns := ps.map PatternTree.pattern ++
          [{ p.pattern with attributes := gather (p.pairs ++ i.pairs) }]
        predicates := (CommandTree.mk k (ps ++ [p])).command.predicates ++ i.predicates p.name
        flag := (if p.role = .bool then i.pairs.map fun e => decide (e.2 = "1") else []).getLast?.or
          (CommandTree.mk k (ps ++ [p])).command.flag } := by
  simp [CommandTree.command, PatternTree.pattern_add, PatternTree.predicates_add,
    PatternTree.flags_add, List.getLast?_append, Option.or_assoc]

theorem CommandTree.command_add_pair {key value : String} {a : Attributes}
    (inserted : p.pattern.attributes.insert key value = .ok a) :
    (CommandTree.mk k (ps ++ [p.add (.pair key value)])).command =
      { (CommandTree.mk k (ps ++ [p])).command with
        patterns := ps.map PatternTree.pattern ++ [{ p.pattern with attributes := a }]
        flag := (if p.role = .bool then some (decide (value = "1")) else none).or
          (CommandTree.mk k (ps ++ [p])).command.flag } := by
  have gathered : gather (p.pairs ++ [(key, value)]) = a := gather_concat inserted
  rw [command_add]
  by_cases bool : p.role = .bool <;> simp [Item.pairs, Item.predicates, gathered, bool]

theorem CommandTree.command_add_clauses (first : Clause) (rest : List (String × Clause)) :
    (CommandTree.mk k (ps ++ [p.add (.clauses first rest)])).command =
      { (CommandTree.mk k (ps ++ [p])).command with
        predicates := (CommandTree.mk k (ps ++ [p])).command.predicates ++
          (Item.clauses first rest).predicates p.name } := by
  rw [command_add]
  simp [Item.pairs, CommandTree.command, PatternTree.pattern]

theorem PatternTree.state_add_pair (key value : String) :
    (p.add (.pair key value)).state = .pair := by
  simp [PatternTree.state, PatternTree.add]

theorem PatternTree.state_add_clauses (first : Clause) (rest : List (String × Clause)) :
    (p.add (.clauses first rest)).state = .predicate := by
  simp [PatternTree.state, PatternTree.add]

theorem transition_inside (t : Token) :
    transition p.state t = insidePattern (decide (p.state = .predicate)) t := by
  rw [PatternTree.state]
  split <;> cases t <;> rfl

end Commands

namespace Partial

open Statement

variable {d d' : Partial} {t : Token}

theorem advance_of_extends (plain : ∀ key value, t = .pair key value → Token.Plain key ∧ Token.Plain value)
    (x : Extends d t d') : advance (d.state, d.draft) t = some (d'.state, d'.draft) := by
  cases x with
  | first k => rfl
  | firstMarker e k role => exact advance_eq rfl (by simp) (Draft.apply_openPattern role _)
  | name e k ps role w =>
      have named : transition role.state (.name w) = (.name, .bindIdentifier) := by
        cases role <;> rfl
      refine advance_eq named (by simp) ?_
      simp only [draft, CommandTree.command_bare]
      exact Draft.apply_bindIdentifier _ _ w
  | marker e k ps p role =>
      refine advance_eq (transition_inside _) (by simp) ?_
      exact Draft.apply_openPattern role _
  | pair e k ps p key value permitted =>
      obtain ⟨plainKey, plainValue⟩ := plain key value rfl
      obtain ⟨keyFree, valueFree, bool⟩ := permitted
      have inserted := (Attributes.insert_eq_ok_iff p.pattern.attributes _ key value).2
        ⟨(Token.admissible_iff_of_plain plainKey).2 keyFree,
          (Token.admissible_iff_of_plain plainValue).2 valueFree, rfl⟩
      have done := (Draft.insertPair_eq_ok_iff (CommandTree.patterns_concat k ps p) key value _).2
        ⟨bool, _, inserted, rfl⟩
      rw [state, state, PatternTree.state_add_pair, draft, draft, CommandTree.command_add_pair inserted]
      refine advance_eq (transition_inside _) (by simp) ?_
      exact (Draft.apply_insertPair_eq_ok_iff key value _).2 ⟨_, done, rfl⟩
  | clause e k ps p c =>
      rw [state, state, PatternTree.state_add_clauses, draft, draft, CommandTree.command_add_clauses]
      refine advance_eq (transition_inside _) (by simp) ?_
      exact Draft.apply_appendPredicate (CommandTree.last_pattern k ps p) _ _ _
  | chain e k ps p =>
      refine advance_eq (transition_inside _) (by simp) ?_
      simp only [draft, List.map_append, List.map_singleton]
      exact Draft.apply_chainCommand
  | joint e k ps p c rest w combines =>
      have joins : insidePattern true (.name w) = (.predicate, .appendCombinator) := by
        simp [insidePattern, combines]
      obtain ⟨combinator, found⟩ := Option.isSome_iff_exists.1 combines
      have meant : Grammar.joint w = .combinator combinator := by rw [Grammar.joint, found, Option.getD_some]
      rw [state, PatternTree.state_add_clauses]
      refine advance_eq joins (by simp) ?_
      simp only [draft, meant]
      exact Draft.apply_appendCombinator found
  | joined e k ps p c rest w c' =>
      rw [state, state, PatternTree.state_add_clauses]
      refine advance_eq rfl (by simp) ?_
      have longer : (Item.clauses c (rest ++ [(w, c')])).predicates p.name =
          (Item.clauses c rest).predicates p.name ++ [Grammar.joint w, c'.meaning p.name] := by
        simp [Item.predicates]
      simp only [draft, CommandTree.command_add_clauses, longer, ← List.append_assoc]
      refine (Draft.apply_appendPredicate (p := p.pattern) ?_ _ _ _).trans ?_
      · exact CommandTree.last_pattern k ps p
      · simp [Clause.meaning, PatternTree.pattern]

theorem exists_extends_inside {e : List CommandTree} {k : Keyword} {ps : List PatternTree}
    {p : PatternTree} {s : ParseState × Draft} (other : t ≠ .terminator)
    (plain : ∀ key value, t = .pair key value → Token.Plain key ∧ Token.Plain value)
    (h : advance (p.state, (Partial.inside e k ps p).draft) t = some s) :
    ∃ d', Extends (.inside e k ps p) t d' := by
  rw [advance_eq_some_iff, transition_inside] at h
  obtain ⟨kept, _, applied⟩ := h
  cases t with
  | marker role => exact ⟨_, .marker e k ps p role⟩
  | predicate key comparison threshold => exact ⟨_, .clause e k ps p ⟨key, comparison, threshold⟩⟩
  | terminator => exact absurd rfl other
  | unknown w => exact absurd rfl kept
  | keyword next =>
      by_cases returning : next = .returning
      · subst returning
        exact ⟨_, .chain e k ps p⟩
      · simp [insidePattern, Draft.apply, Draft.checkComplete, draft, returning, bind, Except.bind,
          throw, throwThe, MonadExceptOf.throw] at applied
  | pair key value =>
      obtain ⟨plainKey, plainValue⟩ := plain key value rfl
      obtain ⟨c, inserted, _⟩ := (Draft.apply_insertPair_eq_ok_iff key value _).1 applied
      obtain ⟨bool, a, stored, _⟩ :=
        (Draft.insertPair_eq_ok_iff (CommandTree.patterns_concat k ps p) key value _).1 inserted
      obtain ⟨hk, hv, _⟩ := (Attributes.insert_eq_ok_iff ..).1 stored
      have permitted : Permitted p.role key value :=
        ⟨(Token.admissible_iff_of_plain plainKey).1 hk, (Token.admissible_iff_of_plain plainValue).1 hv,
          bool⟩
      exact ⟨_, .pair e k ps p key value permitted⟩
  | name w =>
      obtain ⟨behind, combines⟩ := (joins_iff _ w).1 kept
      rw [decide_eq_true_iff] at behind
      rcases p.bare_or_add with bare | ⟨q, i, rfl⟩
      · rw [bare] at behind
        cases behind
      · cases i with
        | pair key value =>
            rw [PatternTree.state_add_pair] at behind
            cases behind
        | clauses first rest => exact ⟨_, .joint e k ps q first rest w combines⟩

theorem exists_extends {s : ParseState × Draft} (other : t ≠ .terminator)
    (plain : ∀ key value, t = .pair key value → Token.Plain key ∧ Token.Plain value)
    (h : advance (d.state, d.draft) t = some s) : ∃ d', Extends d t d' := by
  cases d with
  | start =>
      cases t with
      | keyword k => exact ⟨_, .first k⟩
      | terminator => exact absurd rfl other
      | _ => exact absurd rfl ((advance_eq_some_iff s).1 h).1
  | opened e k =>
      cases t with
      | marker role => exact ⟨_, .firstMarker e k role⟩
      | terminator => exact absurd rfl other
      | _ => exact absurd rfl ((advance_eq_some_iff s).1 h).1
  | marked e k ps role =>
      cases t with
      | name w => exact ⟨_, .name e k ps role w⟩
      | _ => cases role <;> exact absurd rfl ((advance_eq_some_iff s).1 h).1
  | inside e k ps p => exact exists_extends_inside other plain h
  | joining e k ps p first rest w =>
      cases t with
      | predicate key comparison threshold =>
          exact ⟨_, .joined e k ps p first rest w ⟨key, comparison, threshold⟩⟩
      | terminator => exact absurd rfl other
      | unknown v => exact absurd rfl ((advance_eq_some_iff s).1 h).1
      | name v =>
          obtain ⟨kept, _, applied⟩ := (advance_eq_some_iff s).1 h
          have combines := ((joins_iff true v).1 kept).2
          have action : (transition .predicate (.name v)).2 = .appendCombinator := by
            simp [transition, insidePattern, combines]
          rw [state, action] at applied
          cases applied
      | _ => cases ((advance_eq_some_iff s).1 h).2.2

theorem advance_terminator_iff (d : Partial) (s : ParseState × Draft) :
    advance (d.state, d.draft) .terminator = some s ↔ d.Closed ∧ s = (.done, d.draft) := by
  cases d with
  | start | opened e k => simp [advance, state, draft, transition, Draft.apply, Draft.checkComplete,
      Closed, pending, bind, Except.bind, pure, Except.pure, Except.toOption, eq_comm]
  | marked e k ps role => cases role <;> simp [advance, state, transition, Closed, pending, Role.state]
  | inside e k ps p =>
      simp [advance, state, draft, transition_inside, insidePattern, Draft.apply, Draft.checkComplete,
        Closed, pending, bind, Except.bind, pure, Except.pure, Except.toOption, eq_comm]
  | joining e k ps p first rest w =>
      simp [advance, state, draft, transition, insidePattern, Draft.apply, Draft.checkComplete, Closed,
        pending, bind, Except.bind, Except.toOption]

theorem commands_of_closed {d : Partial} (h : d.Closed) :
    d.draft.commands = d.trees.map CommandTree.command := by
  cases d with
  | start | opened e k | inside e k ps p => simp [draft, trees]
  | marked e k ps role | joining e k ps p first rest w => cases h

end Partial
end Grammar

namespace Statement

open Grammar

/-- The machine and the derivation go along together, word by word. -/
theorem consume_eq_some_iff {ws : List String} (h : ";" ∉ ws) (s : ParseState × Draft) :
    (ws.map Token.ofWord).foldlM advance (.start, {}) = some s ↔
      ∃ d, Partial.Builds (ws.map Token.ofWord) d ∧ s = (d.state, d.draft) := by
  induction ws using List.reverseRecOn generalizing s with
  | nil =>
      constructor
      · intro done
        exact ⟨.start, .nil, (Option.some.inj done).symm⟩
      · intro ⟨d, built, same⟩
        subst same
        generalize spelled : ([] : List String).map Token.ofWord = ts at built
        cases built with
        | nil => rfl
        | concat built x => simp at spelled
  | append_singleton ws w ih =>
      rw [List.mem_append, not_or, List.mem_singleton] at h
      have other : Token.ofWord w ≠ .terminator := fun e =>
        h.2 ((Token.ofWord_eq_terminator_iff w).1 e).symm
      have plain (key value : String) (e : Token.ofWord w = .pair key value) :=
        ((Token.ofWord_eq_pair_iff w key value).1 e).2
      rw [List.map_append, List.map_singleton, List.foldlM_append, Option.bind_eq_bind,
        Option.bind_eq_some_iff]
      simp only [List.foldlM_cons, List.foldlM_nil, Option.bind_eq_bind, ih h.1]
      constructor
      · intro ⟨_, ⟨d, built, same⟩, done⟩
        subst same
        have moved : advance (d.state, d.draft) (Token.ofWord w) = some s := by simpa using done
        obtain ⟨d', x⟩ := Partial.exists_extends other plain moved
        have same := moved.symm.trans (Partial.advance_of_extends plain x)
        exact ⟨d', .concat built x, Option.some.inj same⟩
      · intro ⟨d', built, same⟩
        generalize spelled : ws.map Token.ofWord ++ [Token.ofWord w] = ts at built
        cases built with
        | nil => simp at spelled
        | @concat ts t d _ built x =>
            obtain ⟨rfl, rfl⟩ := List.append_singleton_inj.1 spelled
            refine ⟨_, ⟨d, built, rfl⟩, ?_⟩
            rw [Partial.advance_of_extends plain x, same]
            rfl

theorem read_concat_iff {ws : List String} (h : ";" ∉ ws) (offset : Nat) (cs : List Command) :
    read offset (ws ++ [";"]) = .ok cs ↔
      ∃ trees, Derives trees ws ∧ cs = trees.map CommandTree.command := by
  rw [read, run_concat_iff h]
  constructor
  · intro ⟨s, next, draft, consumed, closing, commands⟩
    obtain ⟨d, built, same⟩ := (consume_eq_some_iff h s).1 consumed
    subst same
    obtain ⟨closed, same⟩ := (Partial.advance_terminator_iff d _).1 closing
    cases same
    obtain ⟨wf, spelled⟩ := (Partial.exists_builds_closed_iff _ d.trees).1 ⟨d, built, closed, rfl⟩
    exact ⟨d.trees, ⟨wf, spelled⟩, commands.symm.trans (Partial.commands_of_closed closed)⟩
  · intro ⟨trees, ⟨wf, spelled⟩, commands⟩
    obtain ⟨d, built, closed, same⟩ := (Partial.exists_builds_closed_iff _ trees).2 ⟨wf, spelled⟩
    subst same
    refine ⟨_, _, d.draft, (consume_eq_some_iff h _).2 ⟨d, built, rfl⟩,
      (Partial.advance_terminator_iff d _).2 ⟨closed, rfl⟩, ?_⟩
    exact (Partial.commands_of_closed closed).trans commands.symm

end Statement
end WordGraph
