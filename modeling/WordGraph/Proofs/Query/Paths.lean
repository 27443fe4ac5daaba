import WordGraph.Proofs.Graph.Search
import WordGraph.Proofs.Query.Carrying

/-!
Questions about paths. A path that is reported is shortest, and one is reported exactly if there is
any; the questions for a path, for a shortest path and for an edge between the nodes of two patterns are
answered about the same pairs and agree on each of them.
-/

namespace WordGraph.Session

/-- What a command is answered with another keyword in front of it. -/
def ask (s : Session) (c : Command) (keyword : Keyword) : Except Error Outcome :=
  (s.runCommand { c with keyword }).2.result

theorem ask_eq (s : Session) {c : Command} {keyword : Keyword} {p q : Pattern}
    (accepted : { c with keyword : Command }.check = .ok ()) (two : c.patterns = [p, q])
    {α : Type} (answer : NodeId → NodeId → α) (outcome : List (PairAnswer α) → Outcome)
    (dispatched : s.dispatch { c with keyword } = s.askPairs { c with keyword } answer outcome) :
    s.ask c keyword =
      .ok (outcome ((s.selectedPairs c p q).map fun e => ⟨e.1, e.2, answer e.1 e.2⟩)) := by
  have found := (askPairs_eq_ok_iff s { c with keyword } answer outcome _).2
    ⟨p, q, by simp [two], by simp [two], rfl⟩
  rw [ask, runCommand_of_check accepted (dispatched.trans found)]
  rfl

theorem patterns_of_two_nodes {c : Command} (roles : c.roles = [.node, .node]) :
    ∃ p q, c.patterns = [p, q] := by
  have two : c.patterns.length = 2 := by rw [← length_roles, roles]; rfl
  exact List.length_eq_two.1 two

/-- A search between two nodes of a coherent graph comes to its end, with an empty queue or with the
target met, and then the way back along the parents is a shortest path. One is found exactly if the
target is reached from the source. HASPATH, SHORTESTPATH and HASEDGE about the same patterns answer
about all pairs of nodes that these select: there is a path exactly if one is reported, and an edge
between different nodes exactly if the reported path has no other node. -/
theorem ask_shortest {g : Graph} (coherent : g.Coherent) :
    (∀ a b, g.Ends b (.start a) (g.search b (.start a))) ∧
    (∀ a b found, g.hasNode a = true → a ≠ b → g.search b (.start a) = some found →
      g.Finds a b found) ∧
    (∀ a b, (∃ r, g.route? a b = some r) ↔
      g.hasNode a = true ∧ g.hasNode b = true ∧ Relation.ReflTransGen g.Joined a b) ∧
    (∀ a b r, g.route? a b = some r →
      g.Shortest a b r.nodes ∧ r.length + 1 = r.nodes.length) ∧
    ∀ (s : Session) (c : Command), s.graph = g →
      { c with keyword := .hasPath : Command }.check = .ok () →
      ∃ p q, c.patterns = [p, q] ∧
        s.ask c .hasPath = .ok (.hasPath
          ((s.selectedPairs c p q).map fun e => ⟨e.1, e.2, g.reachable e.1 e.2⟩)) ∧
        s.ask c .shortestPath = .ok (.shortestPath
          ((s.selectedPairs c p q).map fun e => ⟨e.1, e.2, g.shortestPath e.1 e.2⟩)) ∧
        s.ask c .hasEdge = .ok (.hasEdge
          ((s.selectedPairs c p q).map fun e => ⟨e.1, e.2, g.hasEdge e.1 e.2⟩)) ∧
        ∀ e ∈ s.selectedPairs c p q,
          (g.reachable e.1 e.2 = true ↔ ∃ path, g.shortestPath e.1 e.2 = some path) ∧
          (e.1 ≠ e.2 →
            (g.hasEdge e.1 e.2 = true ↔ g.shortestPath e.1 e.2 = some [e.1, e.2])) := by
  refine ⟨fun a b => g.search_ends b _, fun a b found stored different done => ?_, fun a b => ?_,
    fun a b r found => ?_, fun s c same accepted => ?_⟩
  · have underway := Graph.underway_start ((Graph.hasNode_iff ..).1 stored) different
    exact (underway.ends coherent (g.search_ends b _)).1 found done
  · rw [← Graph.exists_leads_iff, ← (coherent.shortestPath_spec a b).1, Graph.route?]
    simp only [Option.map_eq_some_iff]
    constructor
    · intro ⟨_, path, found, _⟩
      exact ⟨path, found⟩
    · intro ⟨path, found⟩
      exact ⟨_, path, found, rfl⟩
  · obtain ⟨path, reported, rfl⟩ := Option.map_eq_some_iff.1 found
    have shortest := (coherent.shortestPath_spec a b).2 path reported
    exact ⟨shortest, Nat.sub_add_cancel (List.length_pos_iff.2 shortest.leads.ne_nil)⟩
  · subst same
    have shaped := ((Command.check_eq_ok_iff _).1 accepted).1
    obtain ⟨p, q, two⟩ := patterns_of_two_nodes (c := c) shaped
    -- The three keywords ask the same of their patterns.
    have acceptedPath : { c with keyword := .shortestPath : Command }.check = .ok () := accepted
    have acceptedEdge : { c with keyword := .hasEdge : Command }.check = .ok () := accepted
    refine ⟨p, q, two, s.ask_eq accepted two _ _ rfl, s.ask_eq acceptedPath two _ _ rfl,
      s.ask_eq acceptedEdge two _ _ rfl, fun e _ => ⟨?_, coherent.hasEdge_iff_shortestPath⟩⟩
    rw [Graph.reachable, Option.isSome_iff_exists]

/-- Along a loop and a cycle there are two ways of the same length; to the last node there is none, and
the search for it runs empty. -/
theorem ask_shortest_tied :
    let p : Pattern := ⟨.node, "a", ∅⟩
    let q : Pattern := ⟨.node, "b", ∅⟩
    let c : Command := { keyword := .hasPath, patterns := [p, q] }
    ∃ g, Graph.ofParts [⟨⟨1⟩, ∅⟩, ⟨⟨2⟩, ∅⟩, ⟨⟨3⟩, ∅⟩, ⟨⟨4⟩, ∅⟩, ⟨⟨5⟩, ∅⟩]
        [⟨⟨1⟩, ⟨1⟩, ∅⟩, ⟨⟨1⟩, ⟨3⟩, ∅⟩, ⟨⟨1⟩, ⟨2⟩, ∅⟩, ⟨⟨2⟩, ⟨4⟩, ∅⟩, ⟨⟨3⟩, ⟨4⟩, ∅⟩, ⟨⟨4⟩, ⟨1⟩, ∅⟩] 5 = .ok g ∧
      g.Coherent ∧
      g.route? ⟨1⟩ ⟨4⟩ = some ⟨[⟨1⟩, ⟨3⟩, ⟨4⟩], 2⟩ ∧ g.Shortest ⟨1⟩ ⟨4⟩ [⟨1⟩, ⟨3⟩, ⟨4⟩] ∧
      g.Ends ⟨5⟩ (.start ⟨1⟩) none ∧ ¬Relation.ReflTransGen g.Joined ⟨1⟩ ⟨5⟩ ∧
      (ofGraph g).ask c .hasPath = .ok (.hasPath (((ofGraph g).selectedPairs c p q).map fun e =>
        ⟨e.1, e.2, g.reachable e.1 e.2⟩)) ∧
      (⟨1⟩, ⟨5⟩) ∈ (ofGraph g).selectedPairs c p q ∧ g.reachable ⟨1⟩ ⟨5⟩ = false := by
  intro p q c
  obtain ⟨g, built⟩ : ∃ g, Graph.ofParts [⟨⟨1⟩, ∅⟩, ⟨⟨2⟩, ∅⟩, ⟨⟨3⟩, ∅⟩, ⟨⟨4⟩, ∅⟩, ⟨⟨5⟩, ∅⟩]
      [⟨⟨1⟩, ⟨1⟩, ∅⟩, ⟨⟨1⟩, ⟨3⟩, ∅⟩, ⟨⟨1⟩, ⟨2⟩, ∅⟩, ⟨⟨2⟩, ⟨4⟩, ∅⟩, ⟨⟨3⟩, ⟨4⟩, ∅⟩, ⟨⟨4⟩, ⟨1⟩, ∅⟩] 5 = .ok g :=
    ⟨_, rfl⟩
  obtain ⟨tied, emptied, missed, listed⟩ : g.route? ⟨1⟩ ⟨4⟩ = some ⟨[⟨1⟩, ⟨3⟩, ⟨4⟩], 2⟩ ∧
      (g.search ⟨5⟩ (.start ⟨1⟩)).isNone = true ∧ g.route? ⟨1⟩ ⟨5⟩ = none ∧
      (⟨1⟩, ⟨5⟩) ∈ (ofGraph g).selectedPairs c p q := by
    cases built
    decide +kernel
  have stored : g.hasNode ⟨1⟩ = true ∧ g.hasNode ⟨5⟩ = true := by
    cases built
    decide +kernel
  have coherent := (Graph.sound_ofParts built).coherent
  obtain ⟨ends, _, reached, shortest, answered⟩ := ask_shortest coherent
  have ended := ends ⟨1⟩ ⟨5⟩
  rw [Option.isNone_iff_eq_none.1 emptied] at ended
  have apart : ¬Relation.ReflTransGen g.Joined ⟨1⟩ ⟨5⟩ := fun joined => by
    obtain ⟨r, found⟩ := (reached ⟨1⟩ ⟨5⟩).2 ⟨stored.1, stored.2, joined⟩
    cases missed.symm.trans found
  obtain ⟨_, _, two, asked, _, _, agree⟩ := answered (ofGraph g) c rfl rfl
  cases two
  refine ⟨g, built, coherent, tied, (shortest _ _ _ tied).1, ended, apart, asked, listed, ?_⟩
  refine Bool.eq_false_iff.2 fun claimed => ?_
  obtain ⟨path, found⟩ := (agree _ listed).1.1 claimed
  rw [Graph.route?, found] at missed
  cases missed

end WordGraph.Session
