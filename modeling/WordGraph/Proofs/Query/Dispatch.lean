import Mathlib.Algebra.Group.Nat.Defs
import WordGraph.Proofs.Graph.Chain
import WordGraph.Proofs.Query.Rules
import WordGraph.Query.Session

/-!
Commands that pass their check are carried out. The rules of a keyword give its command the patterns
that are looked up, the truth value of a change and the shape of a chain; so the only commands that
fail are those that were refused before anything was done.
-/

namespace WordGraph.Session

theorem length_everyOther {α : Type} (xs : List α) :
    (everyOther xs).length = (xs.length + 1) / 2 := by
  fun_induction everyOther xs with
  | case1 => simp
  | case2 x => simp
  | case3 x y rest ih =>
      simp only [List.length_cons, ih]
      omega

theorem patternAt_eq_ok {c : Command} {index : Nat} (h : index < c.patterns.length) :
    patternAt c index = .ok c.patterns[index] := by
  rw [patternAt, List.getElem?_eq_getElem h]

theorem length_roles (c : Command) : c.roles.length = c.patterns.length := List.length_map ..

theorem createNodes_succeeds (s : Session) (ps : List Pattern)
    (room : s.graph.counter.toNat + ps.length < 2 ^ 64) :
    ∃ r, s.createNodes ps = .ok r := by
  induction ps generalizing s with
  | nil => exact ⟨_, rfl⟩
  | cons p rest ih =>
      rw [List.length_cons] at room
      have notLast : s.graph.counter ≠ Graph.lastCounter := by
        intro last
        have : s.graph.counter.toNat = 2 ^ 64 - 1 := congrArg UInt64.toNat last
        omega
      have added := (Graph.addNode_eq_ok_iff s.graph _ p.attributes).2 ⟨notLast, rfl⟩
      have counted := Graph.toNat_succ notLast
      obtain ⟨⟨final, nodes⟩, created⟩ := ih (({ s with graph := { s.graph with
        nodeTable :=
          s.graph.nodeTable.insert s.graph.nextId ⟨s.graph.nextId, p.attributes⟩ (Node.id_mk ..)
        counter := s.graph.counter + 1 } } : Session).bind p.identifier
          (.node ⟨s.graph.nextId, p.attributes⟩)) (by
        change (s.graph.counter + 1).toNat + rest.length < 2 ^ 64
        omega)
      refine ⟨(final, ⟨s.graph.nextId, p.attributes⟩ :: nodes), ?_⟩
      simp only [createNodes, Except.bind_eq_ok_iff, Except.mapError_eq_ok_iff]
      exact ⟨_, added, _, created, rfl⟩

theorem createNodes_halts (s : Session) (ps : List Pattern)
    (full : 2 ^ 64 ≤ s.graph.counter.toNat + ps.length) :
    s.createNodes ps = .error (.halt .exhausted) := by
  induction ps generalizing s with
  | nil => exact absurd full (Nat.not_le.2 s.graph.counter.toNat_lt)
  | cons p rest ih =>
      rw [List.length_cons] at full
      rw [createNodes]
      by_cases last : s.graph.counter = Graph.lastCounter
      · rw [Graph.addNode, if_pos last]
        rfl
      · have counted := Graph.toNat_succ last
        rw [(Graph.addNode_eq_ok_iff s.graph _ p.attributes).2 ⟨last, rfl⟩]
        refine congrArg (fun made => made >>= fun made : Session × List Node =>
          .ok (made.1, ⟨s.graph.nextId, p.attributes⟩ :: made.2)) (ih _ ?_)
        change 2 ^ 64 ≤ (s.graph.counter + 1).toNat + rest.length
        omega

theorem askPairs_succeeds {α : Type} (s : Session) (c : Command) (answer : NodeId → NodeId → α)
    (outcome : List (PairAnswer α) → Outcome) (two : c.patterns.length = 2) :
    ∃ effect, s.askPairs c answer outcome = .ok effect := by
  rw [askPairs, nodePairs, patternAt_eq_ok (by omega), patternAt_eq_ok (by omega)]
  exact ⟨_, rfl⟩

theorem odd_length_patterns {c : Command} (shape : c.roles.length = 1 ∨ alternates c.roles = true) :
    c.patterns.length % 2 = 1 := by
  rw [← length_roles]
  rcases shape with single | alternating
  · rw [single]
  · exact length_of_alternates alternating

/-- The patterns of a chain have one node more than they have edges. -/
theorem filters_shape {c : Command} (shape : c.roles.length = 1 ∨ alternates c.roles = true)
    (several : c.patterns.length ≠ 1) :
    ((everyOther c.patterns).map Pattern.attributes).length =
        ((everyOther c.patterns.tail).map Pattern.attributes).length + 1 ∧
      (everyOther c.patterns.tail).map Pattern.attributes ≠ [] := by
  have odd := odd_length_patterns shape
  have nodes := length_everyOther c.patterns
  have edges := length_everyOther c.patterns.tail
  rw [List.length_tail] at edges
  rw [List.length_map, List.length_map, ne_eq, List.map_eq_nil_iff]
  refine ⟨by omega, fun none => ?_⟩
  rw [none, List.length_nil] at edges
  omega

/-- The ends of the walks of a chain as they are searched. -/
def fragments (s : Session) (c : Command) : List Fragment :=
  Fragment.joinAll (s.graph.hops ((everyOther c.patterns).map Pattern.attributes)
    ((everyOther c.patterns.tail).map Pattern.attributes)
    ((everyOther c.patterns).map fun p => (s.allowed c p).1))

theorem matchChain_eq (s : Session) {c : Command}
    (shape : c.roles.length = 1 ∨ alternates c.roles = true) (several : c.patterns.length ≠ 1) :
    s.matchChain c = .ok
      (if s.fragments c = [] then ⟨s, .noMatch, (everyOther c.patterns).flatMap (s.allowed c · |>.2)⟩
        else ⟨c.patterns.foldl (fun t p => t.bind p.identifier (.chain (s.fragments c))) s,
          .chain (s.fragments c), (everyOther c.patterns).flatMap (s.allowed c · |>.2)⟩) := by
  obtain ⟨counts, some_edge⟩ := filters_shape shape several
  have found : s.graph.chain ((everyOther c.patterns).map Pattern.attributes)
      ((everyOther c.patterns.tail).map Pattern.attributes)
      (((everyOther c.patterns).map (s.allowed c)).map Prod.fst) =
        if s.fragments c = [] then none else some (s.fragments c) := by
    rw [Graph.chain, List.map_map]
    simp only [List.isEmpty_iff]
    rfl
  simp only [matchChain, s.graph.matchChain_of_shape counts some_edge, found, List.flatMap_map]
  by_cases nothing : s.fragments c = []
  · rw [if_pos nothing, if_pos nothing]
  · rw [if_neg nothing, if_neg nothing]

theorem length_patterns_ne_one {c : Command} (noSingle : ∀ p, c.patterns ≠ [p]) :
    c.patterns.length ≠ 1 := by
  intro single
  obtain ⟨p, same⟩ := List.length_eq_one_iff.1 single
  exact noSingle p same

theorem runMatch_succeeds (s : Session) (c : Command)
    (shape : c.roles.length = 1 ∨ alternates c.roles = true) :
    ∃ effect, s.runMatch c = .ok effect := by
  rw [runMatch]
  split
  · split
    · exact ⟨_, rfl⟩
    · exact ⟨_, rfl⟩
  · exact ⟨_, rfl⟩
  · rename_i noSingle _
    exact ⟨_, matchChain_eq s shape (length_patterns_ne_one noSingle)⟩

theorem flagOf_eq_ok {c : Command} (h : c.flag.isSome = true) : ∃ flag, flagOf c = .ok flag := by
  obtain ⟨flag, given⟩ := Option.isSome_iff_exists.1 h
  exact ⟨flag, by rw [flagOf, given]⟩

/-- A command that has what its keyword asks for is carried out, if the new nodes of a CREATE have
identities left. -/
theorem dispatch_succeeds (s : Session) (c : Command) (shaped : c.Shaped)
    (room : c.keyword = .create → s.graph.counter.toNat + c.patterns.length < 2 ^ 64) :
    ∃ effect, s.dispatch c = .ok effect := by
  rw [Command.Shaped] at shaped
  rw [dispatch.eq_def]
  have length (roles : List Role) (h : c.roles = roles) : c.patterns.length = roles.length := by
    rw [← length_roles, h]
  cases keyword : c.keyword with
  | create =>
      obtain ⟨⟨final, nodes⟩, created⟩ := createNodes_succeeds s c.patterns (room keyword)
      simp only [created]
      exact ⟨_, rfl⟩
  | matching =>
      simp only [keyword] at shaped
      exact runMatch_succeeds s c shaped.2.2
  | modifyNode | modifyEdge =>
      simp only [keyword] at shaped
      obtain ⟨roles, given⟩ := shaped
      obtain ⟨flag, read⟩ := flagOf_eq_ok given
      have three : c.patterns.length = 3 := length _ roles
      simp only [read, patternAt_eq_ok (show 0 < c.patterns.length by omega),
        patternAt_eq_ok (show 1 < c.patterns.length by omega)]
      exact ⟨_, rfl⟩
  | deleteNode | deleteEdge | neighbor =>
      simp only [keyword] at shaped
      have one : c.patterns.length = 1 := length _ shaped
      simp only [patternAt_eq_ok (show 0 < c.patterns.length by omega)]
      exact ⟨_, rfl⟩
  | hasPath | shortestPath | hasEdge | commonNeighbors =>
      simp only [keyword] at shaped
      exact askPairs_succeeds s c _ _ (length _ shaped)
  | createEdge | returning | clear | showing | visualize => exact ⟨_, rfl⟩

theorem runCommand_of_check {s : Session} {c : Command} (accepted : c.check = .ok ()) {effect : Effect}
    (done : s.dispatch c = .ok effect) :
    s.runCommand c = (effect.session, ⟨some c.keyword, .ok effect.outcome, effect.warnings⟩) := by
  simp only [runCommand, accepted, done]

theorem runCommand_of_fault {s : Session} {c : Command} {fault : RuleFault}
    (refused : c.check = .error fault) :
    s.runCommand c = (s, { keyword := some c.keyword, result := .error (.rule c.keyword fault) }) := by
  simp only [runCommand, refused]

/-- The program breaks off at a command exactly if it is a CREATE that is carried out and asks for more
nodes than there are identities left. -/
theorem runCommand_halts_iff (s : Session) (c : Command) :
    (s.runCommand c).2.halts = true ↔
      c.check = .ok () ∧ c.keyword = .create ∧
        2 ^ 64 ≤ s.graph.counter.toNat + c.patterns.length := by
  constructor
  · intro halted
    cases verdict : c.check with
    | error fault =>
        rw [runCommand_of_fault verdict] at halted
        cases halted
    | ok _ =>
        by_contra room
        obtain ⟨effect, done⟩ := dispatch_succeeds s c ((Command.check_eq_ok_iff c).1 verdict).1
          fun keyword => Nat.lt_of_not_le fun full => room ⟨rfl, keyword, full⟩
        rw [runCommand_of_check verdict done] at halted
        cases halted
  · intro ⟨verdict, keyword, full⟩
    simp only [runCommand, verdict, dispatch, keyword, createNodes_halts s c.patterns full]
    rfl

/-- A command fails exactly if its check refuses it, and then nothing has changed. One that passes is
carried out to its end: no pattern is missing, no truth value and no part of a chain. -/
theorem runCommand_fails_iff (s : Session) (c : Command)
    (room : c.keyword = .create → s.graph.counter.toNat + c.patterns.length < 2 ^ 64) :
    ((∃ e, (s.runCommand c).2.result = .error e) ↔ ∃ fault, c.check = .error fault) ∧
      ((∃ e, (s.runCommand c).2.result = .error e) → (s.runCommand c).1 = s) ∧
      (c.check = .ok () → ∃ effect, s.dispatch c = .ok effect) := by
  cases verdict : c.check with
  | error fault =>
      rw [runCommand_of_fault verdict]
      exact ⟨⟨fun _ => ⟨fault, rfl⟩, fun _ => ⟨_, rfl⟩⟩, fun _ => rfl, nofun⟩
  | ok _ =>
      obtain ⟨effect, done⟩ := dispatch_succeeds s c ((Command.check_eq_ok_iff c).1 verdict).1 room
      have answered : ¬∃ e, (s.runCommand c).2.result = .error e := by
        rw [runCommand_of_check verdict done]
        intro ⟨_, failed⟩
        cases failed
      exact ⟨⟨fun failed => absurd failed answered, nofun⟩, fun failed => absurd failed answered,
        fun _ => ⟨effect, done⟩⟩

/-- Two nodes that take the last identities, and a change that lacks its truth value. -/
theorem runCommand_fails_iff_last :
    ∃ s : Session, s.graph.counter = Graph.lastCounter - 2 ∧
      (∃ effect, s.dispatch { keyword := .create, patterns := [⟨.node, "a", ∅⟩, ⟨.node, "b", ∅⟩] } =
        .ok effect) ∧
      (s.runCommand { keyword := .modifyNode
                      patterns := [⟨.node, "a", ∅⟩, ⟨.node, "b", ∅⟩, ⟨.bool, "f", ∅⟩] }).1 = s := by
  refine ⟨.ofGraph ⟨∅, ∅, ∅, Graph.lastCounter - 2⟩, rfl, ?_, ?_⟩
  · exact (runCommand_fails_iff _ { keyword := .create, patterns := [⟨.node, "a", ∅⟩, ⟨.node, "b", ∅⟩] }
      fun _ => by decide +kernel).2.2 rfl
  · exact (runCommand_fails_iff _ { keyword := .modifyNode, patterns :=
      [⟨.node, "a", ∅⟩, ⟨.node, "b", ∅⟩, ⟨.bool, "f", ∅⟩] } nofun).2.1 ⟨_, rfl⟩

end WordGraph.Session
