import WordGraph.Proofs.Graph.Relinking
import WordGraph.Proofs.Query.Targets

/-!
Commands that are given twice. Whether a pattern selects a node depends on that node alone, so a
second change or deletion selects nothing that the first one passed over, and what it finds is as the
first one left it; a second CREATEEDGE puts the edges of the first in the same order. Only a CREATE
does more when it is given again.
-/

namespace WordGraph

namespace Graph

variable {g : Graph}

theorem change_change (add : Bool) (a update : Attributes) :
    change add (change add a update) update = change add a update := by
  cases add with
  | true => exact Attributes.ext_table (OrderedMap.merge_merge a.table update.table)
  | false =>
      exact Attributes.ext_table (OrderedMap.filter_filter a.table fun key _ => !update.contains key)

theorem connect_eq (attributes : Attributes) {pairs : List Endpoints}
    (stored : ∀ e ∈ pairs, e.1 ∈ g.nodeTable.keys ∧ e.2 ∈ g.nodeTable.keys) :
    (g.connect attributes pairs).1 = (pairs.map fun e => ⟨e.1, e.2, attributes⟩).foldl put g := by
  induction pairs generalizing g with
  | nil => rfl
  | cons e rest ih =>
      have added := addEdge_eq_put (e := ⟨e.1, e.2, attributes⟩) (stored e (List.mem_cons_self ..))
      have others := ih (g := g.put ⟨e.1, e.2, attributes⟩) fun f hf =>
        stored f (List.mem_cons_of_mem _ hf)
      rw [connect, added]
      exact others

section Changes

variable (add : Bool) (update : Attributes)

/-- A second change of some of the nodes changes nothing. -/
theorem changeNodes_again (g : Graph) {ids more : List NodeId} (known : ∀ id ∈ more, id ∈ ids) :
    ((g.changeNodes add update ids).1.changeNodes add update more).1 =
      (g.changeNodes add update ids).1 := by
  have twice (n : Node) : (n.edit (change add · update)).edit (change add · update) =
      n.edit (change add · update) := congrArg (Node.mk n.id) (change_change add n.attributes update)
  rw [changeNodes_eq, changeNodes_eq, g.nodeTable.modifyAll_again twice known]

theorem changeEdges_again (g : Graph) {ends more : List Endpoints} (known : ∀ e ∈ more, e ∈ ends) :
    ((g.changeEdges add update ends).1.changeEdges add update more).1 =
      (g.changeEdges add update ends).1 := by
  have twice (e : Edge) : (e.edit (change add · update)).edit (change add · update) =
      e.edit (change add · update) :=
    congrArg (Edge.mk e.source e.target) (change_change add e.attributes update)
  rw [changeEdges_eq, changeEdges_eq, g.edgeTable.modifyAll_again twice known]

theorem edge?_changeEdges (g : Graph) {ends : List Endpoints} {source target : NodeId}
    (other : (source, target) ∉ ends) :
    (g.changeEdges add update ends).1.edge? source target = g.edge? source target := by
  rw [changeEdges_eq, edge?, edge?, g.edgeTable.find?_modifyAll_other other]

end Changes

section Removals

theorem mem_edges_of_removeEdge {h : Graph} {source target : NodeId} {e : Edge}
    (removed : g.removeEdge source target = some (e, h)) (x : Edge) :
    x ∈ h.edges ↔ x ∈ g.edges ∧ x.endpoints ≠ (source, target) := by
  obtain ⟨_, rfl⟩ := (removeEdge_eq_some_iff ..).1 removed
  have listed := g.edgeTable.values_erase (source, target)
  rw [edges, listed, List.mem_filter, decide_eq_true_eq]
  rfl

/-- A removal leaves the edges that it was not given. -/
theorem mem_edges_removeEdges (g : Graph) (ends : List Endpoints) (x : Edge) :
    x ∈ (g.removeEdges ends).1.edges ↔ x ∈ g.edges ∧ x.endpoints ∉ ends := by
  induction ends generalizing g with
  | nil => exact ⟨fun h => ⟨h, List.not_mem_nil⟩, And.left⟩
  | cons e rest ih =>
      rw [removeEdges, List.mem_cons, not_or, ← and_assoc]
      split
      · rename_i edge smaller removed
        refine (ih smaller).trans ?_
        rw [mem_edges_of_removeEdge removed]
      · rename_i missing
        have unknown : g.edge? e.1 e.2 = none := by simpa [removeEdge] using missing
        rw [ih g]
        refine and_congr_left fun _ => ⟨fun stored => ⟨stored, fun same => ?_⟩, And.left⟩
        have found := (edge?_eq_some_iff g e.1 e.2 x).2 ⟨stored, same⟩
        rw [unknown] at found
        cases found

end Removals

end Graph

namespace Session

variable {s t : Session} {c : Command}

/-- What carrying out a command comes to is what it does. -/
theorem dispatch_of_carries {e : Effect} (h : s.Carries c e) : s.dispatch c = .ok e := by
  rw [dispatch.eq_def]
  cases h with
  | create keyword created =>
      simp only [keyword, created]
      rfl
  | createEdge keyword | returning keyword | clear keyword | showing keyword | visualize keyword =>
      simp only [keyword]
  | matching keyword found =>
      simp only [keyword]
      exact found
  | modifyNode keyword flag first second | modifyEdge keyword flag first second =>
      simp only [keyword, Except.bind_eq_ok_iff, flagOf_eq_ok_iff, patternAt_eq_ok_iff]
      exact ⟨_, flag, _, first, _, second, rfl⟩
  | deleteNode keyword first | deleteEdge keyword first | neighbor keyword first =>
      simp only [keyword, Except.bind_eq_ok_iff, patternAt_eq_ok_iff]
      exact ⟨_, first, rfl⟩
  | hasPath keyword first second | shortestPath keyword first second
  | hasEdge keyword first second | commonNeighbors keyword first second =>
      simp only [keyword, askPairs_eq_ok_iff]
      exact ⟨_, _, first, second, rfl⟩

theorem carried_again {e f : Effect} (done : s.dispatch c = .ok e) (h : s.Carries c f) : e = f := by
  rw [dispatch_of_carries h] at done
  exact (Except.ok.inj done).symm

section Linking

theorem link_graph (s : Session) (c : Command) (h : Hop) :
    (s.link c h).graph = (s.linked c h).foldl Graph.put s.graph := by
  rw [← s.map_selectedPairs c h]
  exact Graph.connect_eq _ fun e he => ends_selectedPairs he

theorem createEdges_graph (s : Session) (c : Command) (ps : List Pattern) :
    (s.createEdges c ps).1.graph =
      ((Hop.ofPatterns ps).flatMap (s.linked c)).foldl Graph.put s.graph := by
  match ps with
  | [] | [_] | [_, _] => rfl
  | source :: relation :: target :: rest =>
      have others := createEdges_graph (s.link c ⟨source, relation, target⟩) c (target :: rest)
      have same := s.nodeTable_link c ⟨source, relation, target⟩
      rw [(createEdges_cons s c source relation target rest).1, others, link_graph,
        flatMap_linked_of_nodeTable same, Hop.ofPatterns, List.flatMap_cons, List.foldl_append]

theorem createEdges_again (coherent : s.graph.Coherent) (c : Command) (ps : List Pattern) :
    ((s.createEdges c ps).1.createEdges c ps).1.graph = (s.createEdges c ps).1.graph := by
  have ends : ∀ e ∈ (Hop.ofPatterns ps).flatMap (s.linked c), s.graph.HasEnds e := by
    intro e he
    obtain ⟨h, _, put⟩ := List.mem_flatMap.1 he
    exact ends_linked put
  have same := flatMap_linked_of_nodeTable (createEdges_spec s c ps).1 c (Hop.ofPatterns ps)
  rw [createEdges_graph, same, createEdges_graph]
  exact coherent.foldl_put_again ends

end Linking

section Selecting

/-- A pattern selects no node behind a change of nodes that it did not select before. -/
theorem matched_changeNodes (s : Session) (c : Command) (p : Pattern) (add : Bool)
    (update : Attributes) {id : NodeId}
    (again : id ∈ (({ s with graph := (s.graph.changeNodes add update (s.matched c p).ids).1 } :
      Session).matched c p).ids) : id ∈ (s.matched c p).ids := by
  by_contra new
  obtain ⟨n, stored, named, selected⟩ := (selected_iff_mem ..).2 again
  have found := (Graph.node?_eq_some_iff _ id n).2 ⟨stored, named⟩
  rw [Graph.node?_changeNodes _ _ _ new] at found
  have there := ((Graph.node?_eq_some_iff ..).1 found).1
  exact new ((selected_iff_mem ..).1 ⟨n, there, named, selected⟩)

/-- Edges that do not pass a filter do not pass it behind a change of those that do. -/
theorem edgesWith_changeEdges (g : Graph) (filter : Attributes) (add : Bool) (update : Attributes)
    {ends : Endpoints}
    (again : ends ∈ ((g.changeEdges add update ((g.edgesWith filter).map Edge.endpoints)).1.edgesWith
      filter).map Edge.endpoints) : ends ∈ (g.edgesWith filter).map Edge.endpoints := by
  by_contra new
  obtain ⟨e, found, rfl⟩ := List.mem_map.1 again
  obtain ⟨stored, passes⟩ := List.mem_filter.1 found
  have there := Graph.edge?_of_mem stored
  rw [Graph.edge?_changeEdges _ _ _ new, Graph.edge?_eq_some_iff] at there
  exact new (List.mem_map_of_mem (List.mem_filter.2 ⟨there.1, passes⟩))

theorem matched_removeNodes (s : Session) (c : Command) (p : Pattern) :
    ((s.removeNodes (s.matched c p).ids).1.matched c p).ids = [] := by
  refine List.eq_nil_iff_forall_not_mem.2 fun id again => ?_
  obtain ⟨n, stored, _, selected⟩ := (selected_iff_mem ..).2 again
  exact ((removeNodes_matched s c p n).2.1 stored).2 selected

theorem edgesWith_removeEdges (g : Graph) (filter : Attributes) :
    (g.removeEdges ((g.edgesWith filter).map Edge.endpoints)).1.edgesWith filter = [] := by
  refine List.eq_nil_iff_forall_not_mem.2 fun e again => ?_
  obtain ⟨stored, passes⟩ := List.mem_filter.1 again
  obtain ⟨there, spared⟩ := (g.mem_edges_removeEdges _ e).1 stored
  exact spared (List.mem_map_of_mem (List.mem_filter.2 ⟨there, passes⟩))

end Selecting

/-- A command that is not a CREATE finds nothing to do that it did not do the first time. -/
theorem dispatch_again (coherent : s.graph.Coherent) (other : c.keyword ≠ .create) {e f : Effect}
    (done : s.dispatch c = .ok e) (again : e.session.dispatch c = .ok f) :
    f.session.graph = e.session.graph := by
  cases carries_of_dispatch done with
  | create keyword created => exact absurd keyword other
  | createEdge keyword =>
      cases carried_again again (.createEdge keyword)
      exact createEdges_again coherent c c.patterns
  | matching keyword found =>
      simp only [dispatch.eq_def, keyword] at again
      exact runMatch_graph again
  | modifyNode keyword flag first second =>
      cases carried_again again (.modifyNode keyword flag first second)
      exact Graph.changeNodes_again _ _ _ fun id hid => matched_changeNodes s c _ _ _ hid
  | modifyEdge keyword flag first second =>
      cases carried_again again (.modifyEdge keyword flag first second)
      exact Graph.changeEdges_again _ _ _ fun ends hends => edgesWith_changeEdges _ _ _ _ hends
  | deleteNode keyword first =>
      cases carried_again again (.deleteNode keyword first)
      simp only [matched_removeNodes]
      rfl
  | deleteEdge keyword first =>
      cases carried_again again (.deleteEdge keyword first)
      simp only [edgesWith_removeEdges]
      rfl
  | clear keyword =>
      cases carried_again again (.clear keyword)
      rfl
  | hasPath keyword first second | shortestPath keyword first second | hasEdge keyword first second
  | commonNeighbors keyword first second | neighbor keyword first | returning keyword
  | showing keyword | visualize keyword =>
      cases Except.ok.inj (done.symm.trans again)
      rfl

/-- Every command but a CREATE may be given twice: the second time it is carried out as well, and the
graph is then the one that the first time left, with its order and its counter. -/
theorem runCommand_again {s : Session} (reached : s.Reachable) {c : Command}
    (accepted : c.check = .ok ()) (other : c.keyword ≠ .create) :
    (s.runCommand c).2.succeeded = true ∧
      ((s.runCommand c).1.runCommand c).2.succeeded = true ∧
      ((s.runCommand c).1.runCommand c).1.graph = (s.runCommand c).1.graph := by
  have shaped := ((Command.check_eq_ok_iff c).1 accepted).1
  obtain ⟨e, done⟩ := dispatch_succeeds s c shaped (absurd · other)
  obtain ⟨f, again⟩ := dispatch_succeeds e.session c shaped (absurd · other)
  rw [runCommand_of_check accepted done, runCommand_of_check accepted again]
  exact ⟨rfl, rfl, dispatch_again reached.sound.coherent other done again⟩

/-- Two hops put the same four edges, one of which was there; the second covers the attributes that
the first gave them. -/
theorem runCommand_again_covered :
    ∃ (s : Session) (c : Command), s.Reachable ∧ Statement.parse (splitWords
        "CREATEEDGE n: a e: r w:1 n: b id<3 e: t w:2 n: c ;") = [.ok [c]] ∧
      c.check = .ok () ∧ c.keyword ≠ .create ∧
      ((s.runCommand c).1.graph.edges.map fun e =>
          (e.source.toNat, e.target.toNat, e.attributes.toList)) =
        [(1, 2, [("w", "2")]), (1, 1, [("w", "2")]), (2, 1, [("w", "2")]), (2, 2, [("w", "2")])] ∧
      ((s.runCommand c).1.runCommand c).1.graph = (s.runCommand c).1.graph := by
  let weight (value : String) (usable : admissible value = true) : Attributes :=
    .put ∅ "w" value (by decide) usable
  let c : Command := { keyword := .createEdge
                       patterns := [⟨.node, "a", ∅⟩, ⟨.edge, "r", weight "1" (by decide)⟩,
                         ⟨.node, "b", ∅⟩, ⟨.edge, "t", weight "2" (by decide)⟩, ⟨.node, "c", ∅⟩]
                       predicates := [.predicate ⟨"id", .less, "3", "b"⟩] }
  have reached : (Session.feed ∅ (.edges [.fields ["1", "2"]])).Reachable := .fed .empty _
  refine ⟨_, c, reached, by decide +kernel, rfl, nofun, by decide +kernel, ?_⟩
  exact (runCommand_again reached (c := c) rfl nofun).2.2

end Session
end WordGraph
