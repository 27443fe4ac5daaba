import WordGraph.Proofs.Query.Dispatch

/-!
What carrying out a command comes to, one case for each keyword: the patterns and the truth value that
it looks up, the session it leaves, its answer and its warnings. A MATCH has a case for each shape of
its patterns.
-/

namespace WordGraph.Session

theorem patternAt_eq_ok_iff (c : Command) (index : Nat) (p : Pattern) :
    patternAt c index = .ok p ↔ c.patterns[index]? = some p := by
  rw [patternAt]
  cases c.patterns[index]? <;> simp

theorem flagOf_eq_ok_iff (c : Command) (flag : Bool) : flagOf c = .ok flag ↔ c.flag = some flag := by
  rw [flagOf]
  cases c.flag <;> simp

/-- The pairs of a node that the first pattern selects with one that the second selects. -/
def selectedPairs (s : Session) (c : Command) (p q : Pattern) : List Endpoints :=
  (s.matched c p).ids.flatMap fun a => (s.matched c q).ids.map fun b => (a, b)

theorem askPairs_eq_ok_iff {α : Type} (s : Session) (c : Command) (answer : NodeId → NodeId → α)
    (outcome : List (PairAnswer α) → Outcome) (e : Effect) :
    s.askPairs c answer outcome = .ok e ↔
      ∃ p q, c.patterns[0]? = some p ∧ c.patterns[1]? = some q ∧
        e = ⟨s, outcome ((s.selectedPairs c p q).map fun e => ⟨e.1, e.2, answer e.1 e.2⟩),
          (s.matched c p).warnings ++ (s.matched c q).warnings⟩ := by
  simp only [askPairs, nodePairs, Except.bind_eq_ok_iff, patternAt_eq_ok_iff]
  constructor
  · intro found
    obtain ⟨_, ⟨p, first, q, second, same⟩, done⟩ := found
    cases same
    cases done
    exact ⟨p, q, first, second, rfl⟩
  · intro found
    obtain ⟨p, q, first, second, same⟩ := found
    exact ⟨_, ⟨p, first, q, second, rfl⟩, same ▸ rfl⟩

/-- Says that carrying out a command comes to this. -/
inductive Carries (s : Session) (c : Command) : Effect → Prop where
  | create {t : Session} {ns : List Node} (keyword : c.keyword = .create)
      (created : s.createNodes c.patterns = .ok (t, ns)) : Carries s c ⟨t, .created ns, []⟩
  | createEdge (keyword : c.keyword = .createEdge) :
      Carries s c ⟨(s.createEdges c c.patterns).1, .edgesCreated (s.createEdges c c.patterns).2.1,
        (s.createEdges c c.patterns).2.2⟩
  | matching {e : Effect} (keyword : c.keyword = .matching) (found : s.runMatch c = .ok e) :
      Carries s c e
  | modifyNode {add : Bool} {target change : Pattern} (keyword : c.keyword = .modifyNode)
      (flag : c.flag = some add) (first : c.patterns[0]? = some target)
      (second : c.patterns[1]? = some change) :
      Carries s c
        ⟨{ s with graph := (s.graph.changeNodes add change.attributes (s.matched c target).ids).1 },
          .modifiedNodes (s.graph.changeNodes add change.attributes (s.matched c target).ids).2,
          (s.matched c target).warnings⟩
  | modifyEdge {add : Bool} {target change : Pattern} (keyword : c.keyword = .modifyEdge)
      (flag : c.flag = some add) (first : c.patterns[0]? = some target)
      (second : c.patterns[1]? = some change) :
      Carries s c
        ⟨{ s with graph := (s.graph.changeEdges add change.attributes
            ((s.graph.edgesWith target.attributes).map Edge.endpoints)).1 },
          .modifiedEdges (s.graph.changeEdges add change.attributes
            ((s.graph.edgesWith target.attributes).map Edge.endpoints)).2, []⟩
  | deleteNode {target : Pattern} (keyword : c.keyword = .deleteNode)
      (first : c.patterns[0]? = some target) :
      Carries s c ⟨(s.removeNodes (s.matched c target).ids).1,
        .deleted (s.graph.removeNodes (s.matched c target).ids).2, (s.matched c target).warnings⟩
  | deleteEdge {target : Pattern} (keyword : c.keyword = .deleteEdge)
      (first : c.patterns[0]? = some target) :
      Carries s c
        ⟨{ s with graph := (s.graph.removeEdges
            ((s.graph.edgesWith target.attributes).map Edge.endpoints)).1 },
          .deleted ⟨[], (s.graph.removeEdges
            ((s.graph.edgesWith target.attributes).map Edge.endpoints)).2⟩, []⟩
  | hasPath {p q : Pattern} (keyword : c.keyword = .hasPath) (first : c.patterns[0]? = some p)
      (second : c.patterns[1]? = some q) :
      Carries s c ⟨s, .hasPath ((s.selectedPairs c p q).map fun e =>
        ⟨e.1, e.2, s.graph.reachable e.1 e.2⟩), (s.matched c p).warnings ++ (s.matched c q).warnings⟩
  | shortestPath {p q : Pattern} (keyword : c.keyword = .shortestPath)
      (first : c.patterns[0]? = some p) (second : c.patterns[1]? = some q) :
      Carries s c ⟨s, .shortestPath ((s.selectedPairs c p q).map fun e =>
        ⟨e.1, e.2, s.graph.shortestPath e.1 e.2⟩), (s.matched c p).warnings ++ (s.matched c q).warnings⟩
  | hasEdge {p q : Pattern} (keyword : c.keyword = .hasEdge) (first : c.patterns[0]? = some p)
      (second : c.patterns[1]? = some q) :
      Carries s c ⟨s, .hasEdge ((s.selectedPairs c p q).map fun e =>
        ⟨e.1, e.2, s.graph.hasEdge e.1 e.2⟩), (s.matched c p).warnings ++ (s.matched c q).warnings⟩
  | commonNeighbors {p q : Pattern} (keyword : c.keyword = .commonNeighbors)
      (first : c.patterns[0]? = some p) (second : c.patterns[1]? = some q) :
      Carries s c ⟨s, .commonNeighbors ((s.selectedPairs c p q).map fun e =>
        ⟨e.1, e.2, s.graph.commonNeighbors e.1 e.2⟩),
          (s.matched c p).warnings ++ (s.matched c q).warnings⟩
  | neighbor {target : Pattern} (keyword : c.keyword = .neighbor)
      (first : c.patterns[0]? = some target) :
      Carries s c ⟨s, .neighbors ((s.matched c target).ids.map fun id => (id, s.graph.neighbors id)),
        (s.matched c target).warnings⟩
  | returning (keyword : c.keyword = .returning) :
      Carries s c ⟨s, .returned (c.patterns.map fun p => (p.identifier, s.binding? p.identifier)),
        ((c.patterns.map fun p => (p.identifier, s.binding? p.identifier)).filter (·.2.isNone)).map
          fun e => .unbound e.1⟩
  | clear (keyword : c.keyword = .clear) : Carries s c ⟨∅, .cleared, []⟩
  | showing (keyword : c.keyword = .showing) : Carries s c ⟨s, .shown s.graph.view, []⟩
  | visualize (keyword : c.keyword = .visualize) : Carries s c ⟨s, .visualized s.graph.view, []⟩

theorem carries_of_dispatch {s : Session} {c : Command} {e : Effect} (done : s.dispatch c = .ok e) :
    s.Carries c e := by
  rw [dispatch.eq_def] at done
  cases keyword : c.keyword with
  | create =>
      simp only [keyword, Except.bind_eq_ok_iff] at done
      obtain ⟨⟨t, ns⟩, created, same⟩ := done
      cases same
      exact .create keyword created
  | createEdge =>
      simp only [keyword] at done
      cases done
      exact .createEdge keyword
  | matching =>
      simp only [keyword] at done
      exact .matching keyword done
  | modifyNode =>
      simp only [keyword, Except.bind_eq_ok_iff, flagOf_eq_ok_iff, patternAt_eq_ok_iff] at done
      obtain ⟨add, flag, target, first, change, second, same⟩ := done
      cases same
      exact .modifyNode keyword flag first second
  | modifyEdge =>
      simp only [keyword, Except.bind_eq_ok_iff, flagOf_eq_ok_iff, patternAt_eq_ok_iff] at done
      obtain ⟨add, flag, target, first, change, second, same⟩ := done
      cases same
      exact .modifyEdge keyword flag first second
  | deleteNode =>
      simp only [keyword, Except.bind_eq_ok_iff, patternAt_eq_ok_iff] at done
      obtain ⟨target, first, same⟩ := done
      cases same
      exact .deleteNode keyword first
  | deleteEdge =>
      simp only [keyword, Except.bind_eq_ok_iff, patternAt_eq_ok_iff] at done
      obtain ⟨target, first, same⟩ := done
      cases same
      exact .deleteEdge keyword first
  | hasPath =>
      simp only [keyword, askPairs_eq_ok_iff] at done
      obtain ⟨p, q, first, second, rfl⟩ := done
      exact .hasPath keyword first second
  | shortestPath =>
      simp only [keyword, askPairs_eq_ok_iff] at done
      obtain ⟨p, q, first, second, rfl⟩ := done
      exact .shortestPath keyword first second
  | hasEdge =>
      simp only [keyword, askPairs_eq_ok_iff] at done
      obtain ⟨p, q, first, second, rfl⟩ := done
      exact .hasEdge keyword first second
  | commonNeighbors =>
      simp only [keyword, askPairs_eq_ok_iff] at done
      obtain ⟨p, q, first, second, rfl⟩ := done
      exact .commonNeighbors keyword first second
  | neighbor =>
      simp only [keyword, Except.bind_eq_ok_iff, patternAt_eq_ok_iff] at done
      obtain ⟨target, first, same⟩ := done
      cases same
      exact .neighbor keyword first
  | returning =>
      simp only [keyword] at done
      cases done
      exact .returning keyword
  | clear =>
      simp only [keyword] at done
      cases done
      exact .clear keyword
  | showing =>
      simp only [keyword] at done
      cases done
      exact .showing keyword
  | visualize =>
      simp only [keyword] at done
      cases done
      exact .visualize keyword

/-- Says that a MATCH comes to this. -/
inductive Finds (s : Session) (c : Command) : Effect → Prop where
  | nodes {p : Pattern} (patterns : c.patterns = [p]) (role : p.role = .node) :
      Finds s c ⟨s.bind p.identifier (.nodes (s.matched c p).nodes), .nodes (s.matched c p).nodes,
        (s.matched c p).warnings⟩
  | edges {p : Pattern} (patterns : c.patterns = [p]) (role : p.role ≠ .node) :
      Finds s c ⟨s.bind p.identifier (.edges (s.graph.edgesWith p.attributes)),
        .edges (s.graph.edgesWith p.attributes), []⟩
  | hop {source relation target : Pattern} (patterns : c.patterns = [source, relation, target]) :
      Finds s c (s.matchEdge c source relation target)
  | nothing (warnings : List Warning) : Finds s c ⟨s, .noMatch, warnings⟩
  | chain (warnings : List Warning) :
      Finds s c ⟨c.patterns.foldl (fun t p => t.bind p.identifier (.chain (s.fragments c))) s,
        .chain (s.fragments c), warnings⟩

theorem finds_of_runMatch {s : Session} {c : Command} {e : Effect} (done : s.runMatch c = .ok e) :
    s.Finds c e := by
  rw [runMatch] at done
  split at done
  · rename_i p patterns
    split at done
    · rename_i role
      cases done
      exact .nodes patterns role
    · rename_i role
      cases done
      exact .edges patterns role
  · rename_i source relation target patterns
    cases done
    exact .hop patterns
  · rw [matchChain] at done
    split at done
    · cases done
    · cases done
      exact .nothing _
    · rename_i fs found
      have same : fs = s.fragments c := by
        rw [Graph.matchChain] at found
        split at found
        · rw [Except.ok.injEq, Graph.chain, List.map_map] at found
          split at found
          · cases found
          · exact (Option.some.inj found).symm
        · cases found
      cases done
      rw [same]
      exact .chain _

/-- Binding every pattern to one value changes the names alone. -/
theorem foldl_bind_eq (s : Session) (b : Binding) (ps : List Pattern) :
    ps.foldl (fun s p => s.bind p.identifier b) s =
      { s with bindings := ps.foldl (fun bs p => bs.insert p.identifier b) s.bindings } := by
  induction ps generalizing s with
  | nil => rfl
  | cons p ps ih => exact ih _

end WordGraph.Session
