import WordGraph.Proofs.Graph.Agreement
import WordGraph.Proofs.Query.Soundness

/-!
Sessions whose graphs agree. Their names may be bound to different things; as only a RETURN looks at
what a name is bound to, every other command answers alike in both and leaves them in agreement.
-/

namespace WordGraph

namespace Graph.Agrees

variable {g h : Graph}

theorem connect (a : g.Agrees h) (attributes : Attributes) (pairs : List Endpoints) :
    (g.connect attributes pairs).1.Agrees (h.connect attributes pairs).1 ∧
      (g.connect attributes pairs).2 = (h.connect attributes pairs).2 := by
  induction pairs generalizing g h with
  | nil => exact ⟨a, rfl⟩
  | cons e rest ih =>
      have both := a.addEdge e.1 e.2 attributes
      rw [Graph.connect, Graph.connect]
      generalize g.addEdge e.1 e.2 attributes = x at both ⊢
      generalize h.addEdge e.1 e.2 attributes = y at both ⊢
      cases both with
      | error fault => exact ih a
      | ok linked =>
          obtain ⟨graphs, edges⟩ := ih linked
          exact ⟨graphs, congrArg (List.cons _) edges⟩

theorem changeNodes (a : g.Agrees h) (add : Bool) (update : Attributes) (ids : List NodeId) :
    (g.changeNodes add update ids).1.Agrees (h.changeNodes add update ids).1 ∧
      (g.changeNodes add update ids).2 = (h.changeNodes add update ids).2 := by
  induction ids generalizing g h with
  | nil => exact ⟨a, rfl⟩
  | cons id rest ih =>
      have changed := a.modifyNode id (change add · update)
      obtain ⟨graphs, nodes⟩ := ih changed
      refine ⟨graphs, ?_⟩
      simp only [Graph.changeNodes, changed.node?_eq, nodes]

theorem changeEdges (a : g.Agrees h) (add : Bool) (update : Attributes) (ends : List Endpoints) :
    (g.changeEdges add update ends).1.Agrees (h.changeEdges add update ends).1 ∧
      (g.changeEdges add update ends).2 = (h.changeEdges add update ends).2 := by
  induction ends generalizing g h with
  | nil => exact ⟨a, rfl⟩
  | cons e rest ih =>
      have changed := a.modifyEdge e.1 e.2 (change add · update)
      obtain ⟨graphs, edges⟩ := ih changed
      refine ⟨graphs, ?_⟩
      simp only [Graph.changeEdges, changed.edge?_eq, edges]

theorem removeNodes (a : g.Agrees h) (ids : List NodeId) :
    (g.removeNodes ids).1.Agrees (h.removeNodes ids).1 ∧
      (g.removeNodes ids).2 = (h.removeNodes ids).2 := by
  induction ids generalizing g h with
  | nil => exact ⟨a, rfl⟩
  | cons id rest ih =>
      have both := a.removeNode id
      rw [Graph.removeNodes, Graph.removeNodes]
      generalize g.removeNode id = x at both ⊢
      generalize h.removeNode id = y at both ⊢
      cases both with
      | none => exact ih a
      | @some x y same =>
          obtain ⟨n, es, g'⟩ := x
          obtain ⟨m, fs, h'⟩ := y
          obtain ⟨rfl, rfl, smaller⟩ := same
          obtain ⟨graphs, removed⟩ := ih smaller
          refine ⟨graphs, ?_⟩
          simp only [removed]

theorem removeEdges (a : g.Agrees h) (ends : List Endpoints) :
    (g.removeEdges ends).1.Agrees (h.removeEdges ends).1 ∧
      (g.removeEdges ends).2 = (h.removeEdges ends).2 := by
  induction ends generalizing g h with
  | nil => exact ⟨a, rfl⟩
  | cons e rest ih =>
      have both := a.removeEdge e.1 e.2
      rw [Graph.removeEdges, Graph.removeEdges]
      generalize g.removeEdge e.1 e.2 = x at both ⊢
      generalize h.removeEdge e.1 e.2 = y at both ⊢
      cases both with
      | none => exact ih a
      | @some x y same =>
          obtain ⟨edge, g'⟩ := x
          obtain ⟨twin, h'⟩ := y
          obtain ⟨rfl, smaller⟩ := same
          obtain ⟨graphs, edges⟩ := ih smaller
          exact ⟨graphs, congrArg (List.cons edge) edges⟩

end Graph.Agrees

/-- Says that two commands that were carried out had the same answer and the same warnings, and left
graphs behind that agree. -/
structure Effect.Agrees (e f : Effect) : Prop where
  graph : e.session.graph.Agrees f.session.graph
  outcome_eq : e.outcome = f.outcome
  warnings_eq : e.warnings = f.warnings

namespace Session

variable {s t : Session}

section Selecting

variable (a : s.graph.Agrees t.graph)
include a

theorem matched_eq (c : Command) (p : Pattern) : s.matched c p = t.matched c p := by
  simp only [matched, filtered, a.nodesWith_eq]

theorem allowed_eq (c : Command) (p : Pattern) : s.allowed c p = t.allowed c p := by
  simp only [allowed, matched_eq a]

theorem nodePairs_eq (c : Command) : s.nodePairs c = t.nodePairs c := by
  simp only [nodePairs, matched_eq a]

end Selecting

theorem createNodes_related (a : s.graph.Agrees t.graph) (ps : List Pattern) :
    Except.Related (fun x y => x.1.graph.Agrees y.1.graph ∧ x.2 = y.2) (s.createNodes ps)
      (t.createNodes ps) := by
  induction ps generalizing s t with
  | nil => exact .ok ⟨a, rfl⟩
  | cons p rest ih =>
      simp only [createNodes, a.nextId_eq]
      refine ((a.addNode p.attributes).mapError Error.halt).bind fun g h grown => ?_
      refine (ih grown).bind fun x y same => ?_
      obtain ⟨final, nodes⟩ := x
      obtain ⟨twin, others⟩ := y
      obtain ⟨graphs, rfl⟩ := same
      exact .ok ⟨graphs, rfl⟩

theorem createEdges_agrees (a : s.graph.Agrees t.graph) (c : Command) (ps : List Pattern) :
    (s.createEdges c ps).1.graph.Agrees (t.createEdges c ps).1.graph ∧
      (s.createEdges c ps).2 = (t.createEdges c ps).2 := by
  fun_induction s.createEdges c ps generalizing t with
  | case1 s source relation target rest left right pairs graph edges connected linked final more
      warnings created =>
      rename_i ih
      obtain ⟨graphs, listed⟩ := a.connect relation.attributes pairs
      rw [connected] at graphs listed
      rcases twin : t.graph.connect relation.attributes pairs with ⟨other, put⟩
      rw [twin] at graphs listed
      cases listed
      let relinked := Session.bind { t with graph := other } relation.identifier (.edges edges)
      obtain ⟨ends, same⟩ := @ih relinked graphs
      rw [created] at ends same
      rw [createEdges, ← matched_eq a, ← matched_eq a]
      simp only [left, right, pairs] at twin ⊢
      simp only [twin]
      exact ⟨ends, Prod.ext (congrArg (fun r => edges ++ r.1) same) (congrArg (fun r => _ ++ r.2) same)⟩
  | case2 ps s short =>
      rw [createEdges.eq_2 _ _ _ short]
      exact ⟨a, rfl⟩

theorem askPairs_related {α : Type} (a : s.graph.Agrees t.graph) (c : Command)
    {answer other : NodeId → NodeId → α} (same : ∀ x y, answer x y = other x y)
    (outcome : List (PairAnswer α) → Outcome) :
    Except.Related Effect.Agrees (s.askPairs c answer outcome) (t.askPairs c other outcome) := by
  rw [askPairs, askPairs, nodePairs_eq a]
  refine .bind_same _ fun found => .ok ⟨a, ?_, rfl⟩
  simp only [same]

theorem matchEdge_agrees (a : s.graph.Agrees t.graph) (c : Command)
    (left relation right : Pattern) :
    (s.matchEdge c left relation right).Agrees (t.matchEdge c left relation right) := by
  refine ⟨a, ?_, ?_⟩
  · simp only [matchEdge, allowed_eq a, a.edgesBetween_eq]
  · simp only [matchEdge, allowed_eq a]

theorem matchChain_related (a : s.graph.Agrees t.graph) (c : Command) :
    Except.Related Effect.Agrees (s.matchChain c) (t.matchChain c) := by
  have narrowed : s.allowed c = t.allowed c := funext (allowed_eq a c)
  rw [matchChain, matchChain, narrowed, a.matchChain_eq]
  split
  · exact .error _
  · exact .ok ⟨a, rfl, rfl⟩
  · refine .ok ⟨?_, rfl, rfl⟩
    simp only [foldl_bind_graph]
    exact a

theorem runMatch_related (a : s.graph.Agrees t.graph) (c : Command) :
    Except.Related Effect.Agrees (s.runMatch c) (t.runMatch c) := by
  rw [runMatch, runMatch]
  split
  · split
    · rw [matched_eq a]
      exact .ok ⟨a, rfl, rfl⟩
    · rw [a.edgesWith_eq]
      exact .ok ⟨a, rfl, rfl⟩
  · exact .ok (matchEdge_agrees a c _ _ _)
  · exact matchChain_related a c

theorem dispatch_related (a : s.graph.Agrees t.graph) {c : Command} (h : c.keyword ≠ .returning) :
    Except.Related Effect.Agrees (s.dispatch c) (t.dispatch c) := by
  rw [dispatch.eq_def, dispatch.eq_def]
  cases keyword : c.keyword with
  | create =>
      refine (createNodes_related a c.patterns).bind fun x y same => ?_
      obtain ⟨final, nodes⟩ := x
      obtain ⟨twin, others⟩ := y
      exact .ok ⟨same.1, congrArg Outcome.created same.2, rfl⟩
  | createEdge =>
      obtain ⟨graphs, same⟩ := createEdges_agrees a c c.patterns
      refine .ok ⟨graphs, ?_, ?_⟩
      · exact congrArg (fun r => Outcome.edgesCreated r.1) same
      · exact congrArg Prod.snd same
  | matching => exact runMatch_related a c
  | modifyNode =>
      refine .bind_same _ fun add => .bind_same _ fun p => .bind_same _ fun q => ?_
      simp only [matched_eq a]
      obtain ⟨graphs, same⟩ := a.changeNodes add q.attributes (t.matched c p).ids
      exact .ok ⟨graphs, congrArg Outcome.modifiedNodes same, rfl⟩
  | modifyEdge =>
      refine .bind_same _ fun add => .bind_same _ fun p => .bind_same _ fun q => ?_
      simp only [a.edgesWith_eq]
      obtain ⟨graphs, same⟩ := a.changeEdges add q.attributes
        ((t.graph.edgesWith p.attributes).map Edge.endpoints)
      exact .ok ⟨graphs, congrArg Outcome.modifiedEdges same, rfl⟩
  | deleteNode =>
      refine .bind_same _ fun p => ?_
      simp only [matched_eq a]
      obtain ⟨graphs, same⟩ := a.removeNodes (t.matched c p).ids
      exact .ok ⟨graphs, congrArg Outcome.deleted same, rfl⟩
  | deleteEdge =>
      refine .bind_same _ fun p => ?_
      simp only [a.edgesWith_eq]
      obtain ⟨graphs, same⟩ := a.removeEdges ((t.graph.edgesWith p.attributes).map Edge.endpoints)
      exact .ok ⟨graphs, congrArg (fun es => Outcome.deleted ⟨[], es⟩) same, rfl⟩
  | hasPath => exact askPairs_related a c a.reachable_eq _
  | shortestPath => exact askPairs_related a c a.shortestPath_eq _
  | hasEdge => exact askPairs_related a c a.hasEdge_eq _
  | commonNeighbors => exact askPairs_related a c a.commonNeighbors_eq _
  | neighbor =>
      refine .bind_same _ fun p => ?_
      simp only [matched_eq a, a.neighbors_eq]
      exact .ok ⟨a, rfl, rfl⟩
  | returning => exact absurd keyword h
  | clear => exact .ok ⟨.refl _, rfl, rfl⟩
  | showing | visualize =>
      simp only [Graph.view, a.nodes_eq, a.edges_eq]
      exact .ok ⟨a, rfl, rfl⟩

theorem runCommand_agrees (a : s.graph.Agrees t.graph) {c : Command} (h : c.keyword ≠ .returning) :
    (s.runCommand c).1.graph.Agrees (t.runCommand c).1.graph ∧
      (s.runCommand c).2 = (t.runCommand c).2 := by
  rw [runCommand, runCommand]
  cases c.check with
  | error fault => exact ⟨a, rfl⟩
  | ok u =>
      have both := dispatch_related a h
      generalize s.dispatch c = x at both ⊢
      generalize t.dispatch c = y at both ⊢
      cases both with
      | error e => exact ⟨a, rfl⟩
      | ok effects =>
          refine ⟨effects.graph, ?_⟩
          simp only [effects.outcome_eq, effects.warnings_eq]

theorem runCommands_agrees (a : s.graph.Agrees t.graph) {cs : List Command}
    (h : ∀ c ∈ cs, c.keyword ≠ .returning) :
    (s.runCommands cs).1.graph.Agrees (t.runCommands cs).1.graph ∧
      (s.runCommands cs).2 = (t.runCommands cs).2 := by
  induction cs generalizing s t with
  | nil => exact ⟨a, rfl⟩
  | cons c rest ih =>
      obtain ⟨first, report⟩ := runCommand_agrees a (h c (List.mem_cons_self ..))
      obtain ⟨last, reports⟩ := ih first fun d hd => h d (List.mem_cons_of_mem _ hd)
      exact ⟨last, congrArg₂ List.cons report reports⟩

theorem runStatements_agrees (a : s.graph.Agrees t.graph)
    {statements : List (Except ParseError (List Command))}
    (h : ∀ cs, .ok cs ∈ statements → ∀ c ∈ cs, c.keyword ≠ .returning) :
    (s.runStatements statements).1.graph.Agrees (t.runStatements statements).1.graph ∧
      (s.runStatements statements).2 = (t.runStatements statements).2 := by
  induction statements generalizing s t with
  | nil => exact ⟨a, rfl⟩
  | cons statement rest ih =>
      have others : ∀ cs, .ok cs ∈ rest → ∀ c ∈ cs, c.keyword ≠ .returning := fun cs hcs =>
        h cs (List.mem_cons_of_mem _ hcs)
      cases statement with
      | error e =>
          obtain ⟨last, reports⟩ := ih a others
          exact ⟨last, congrArg (List.cons _) reports⟩
      | ok cs =>
          obtain ⟨next, first⟩ := runCommands_agrees a (h cs (List.mem_cons_self ..))
          obtain ⟨last, reports⟩ := ih next others
          exact ⟨last, congrArg₂ List.append first reports⟩

end Session
end WordGraph
