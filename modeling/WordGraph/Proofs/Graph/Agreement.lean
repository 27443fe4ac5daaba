import WordGraph.Graph.Chain
import WordGraph.Graph.Path
import WordGraph.Proofs.Failure
import WordGraph.Proofs.Graph.Adjacency
import WordGraph.Proofs.Graph.Soundness

/-!
Graphs that agree: they have the same tables and the same counter, and their adjacencies list the
same neighbours in the same order. Two such graphs may keep different rows for nodes without
neighbours. Whatever is asked of them is answered alike, and whatever is done to both leaves them in
agreement.
-/

namespace WordGraph.Graph

structure Agrees (g h : Graph) : Prop where
  nodeTable_eq : g.nodeTable = h.nodeTable
  edgeTable_eq : g.edgeTable = h.edgeTable
  counter_eq : g.counter = h.counter
  neighbors_eq : ∀ id, g.neighbors id = h.neighbors id
  predecessors_eq : ∀ id, g.predecessors id = h.predecessors id

namespace Agrees

variable {g h : Graph}

theorem refl (g : Graph) : g.Agrees g := ⟨rfl, rfl, rfl, fun _ => rfl, fun _ => rfl⟩

/-- The order of the edges decides the order of the neighbours, so equal tables are enough. -/
theorem of_tables (hg : g.Coherent) (hh : h.Coherent) (nodes : g.nodeTable = h.nodeTable)
    (edges : g.edgeTable = h.edgeTable) (counter : g.counter = h.counter) : g.Agrees h where
  nodeTable_eq := nodes
  edgeTable_eq := edges
  counter_eq := counter
  neighbors_eq id := by
    rw [hg.neighbors_eq, hh.neighbors_eq, Graph.edges, Graph.edges, edges]
  predecessors_eq id := by
    rw [hg.predecessors_eq, hh.predecessors_eq, Graph.edges, Graph.edges, edges]

section Reading

variable (a : g.Agrees h)
include a

theorem nodes_eq : g.nodes = h.nodes := by rw [nodes, nodes, a.nodeTable_eq]

theorem edges_eq : g.edges = h.edges := by rw [edges, edges, a.edgeTable_eq]

theorem hasNode_eq (id : NodeId) : g.hasNode id = h.hasNode id := by
  rw [hasNode, hasNode, a.nodeTable_eq]

theorem node?_eq (id : NodeId) : g.node? id = h.node? id := by rw [node?, node?, a.nodeTable_eq]

theorem edge?_eq (source target : NodeId) : g.edge? source target = h.edge? source target := by
  rw [edge?, edge?, a.edgeTable_eq]

theorem nextId_eq : g.nextId = h.nextId := by rw [nextId, nextId, a.counter_eq]

theorem hasEdge_eq (source target : NodeId) : g.hasEdge source target = h.hasEdge source target := by
  have row := a.neighbors_eq source
  rw [neighbors, neighbors] at row
  rw [hasEdge, hasEdge, Adjacency.linked, Adjacency.linked, row]

theorem incident_eq (id : NodeId) : g.adjacency.incident id = h.adjacency.incident id := by
  have leaving := a.neighbors_eq id
  have entering := a.predecessors_eq id
  rw [neighbors, neighbors] at leaving
  rw [predecessors, predecessors] at entering
  rw [Adjacency.incident, Adjacency.incident, leaving, entering]

theorem nodesWith_eq (filter : Attributes) : g.nodesWith filter = h.nodesWith filter := by
  rw [nodesWith, nodesWith, a.nodes_eq]

theorem edgesWith_eq (filter : Attributes) : g.edgesWith filter = h.edgesWith filter := by
  rw [edgesWith, edgesWith, a.edges_eq]

theorem nodeHas_eq (filter : Attributes) (id : NodeId) :
    g.nodeHas filter id = h.nodeHas filter id := by rw [nodeHas, nodeHas, a.node?_eq]

theorem edgesBetween_eq (source target relation : Option Attributes) :
    g.edgesBetween source target relation = h.edgesBetween source target relation := by
  simp only [edgesBetween, a.nodesWith_eq, a.nodeHas_eq, a.neighbors_eq, a.edge?_eq, a.edges_eq]

theorem hops_eq (nodes edges : List Attributes) (allowed : List Allowed) :
    g.hops nodes edges allowed = h.hops nodes edges allowed := by
  fun_induction g.hops nodes edges allowed with
  | case1 n m nodes e edges allowed here there hop ih =>
      rw [hops, ← ih, ← a.edgesBetween_eq]
  | case2 nodes edges allowed short => rw [hops.eq_2 _ _ _ _ short]

theorem matchChain_eq (nodes edges : List Attributes) (allowed : List Allowed) :
    g.matchChain nodes edges allowed = h.matchChain nodes edges allowed := by
  simp only [matchChain, chain, a.hops_eq]

theorem round_eq (target : NodeId) (s : Survey) : g.round target s = h.round target s := by
  simp only [round, a.neighbors_eq]

theorem search_eq (target : NodeId) (s : Survey) : g.search target s = h.search target s := by
  fun_induction g.search target s with
  | case1 s emptied => rw [h.search_eq_round, ← a.round_eq, emptied]
  | case2 s found reached => rw [h.search_eq_round, ← a.round_eq, reached]
  | case3 s t goesOn ih => rw [h.search_eq_round target s, ← a.round_eq, goesOn, ih]

theorem shortestPath_eq (source target : NodeId) :
    g.shortestPath source target = h.shortestPath source target := by
  simp only [shortestPath, a.hasNode_eq, a.search_eq]

theorem reachable_eq (source target : NodeId) :
    g.reachable source target = h.reachable source target := by
  rw [reachable, reachable, a.shortestPath_eq]

theorem commonNeighbors_eq (x y : NodeId) : g.commonNeighbors x y = h.commonNeighbors x y := by
  simp only [commonNeighbors, a.neighbors_eq]

end Reading

section Changing

variable (a : g.Agrees h)
include a

theorem addNode (attributes : Attributes) :
    Except.Related Agrees (g.addNode attributes) (h.addNode attributes) := by
  simp only [Graph.addNode, a.counter_eq, a.nextId_eq, a.nodeTable_eq]
  split
  · exact .error _
  · exact .ok ⟨rfl, a.edgeTable_eq, rfl, a.neighbors_eq, a.predecessors_eq⟩

theorem modifyNode (id : NodeId) (f : Attributes → Attributes) :
    (g.modifyNode id f).Agrees (h.modifyNode id f) :=
  ⟨congrArg (·.modify id (Node.edit f) (Node.id_edit f)) a.nodeTable_eq, a.edgeTable_eq, a.counter_eq, a.neighbors_eq,
    a.predecessors_eq⟩

theorem modifyEdge (source target : NodeId) (f : Attributes → Attributes) :
    (g.modifyEdge source target f).Agrees (h.modifyEdge source target f) :=
  ⟨a.nodeTable_eq, congrArg (·.modify (source, target) (Edge.edit f) (Edge.endpoints_edit f)) a.edgeTable_eq, a.counter_eq,
    a.neighbors_eq, a.predecessors_eq⟩

theorem checkEndpoints_eq (source target : NodeId) :
    g.checkEndpoints source target = h.checkEndpoints source target := by
  simp only [checkEndpoints, a.hasNode_eq]

theorem addEdge (source target : NodeId) (attributes : Attributes) :
    Except.Related Agrees (g.addEdge source target attributes) (h.addEdge source target attributes) := by
  rw [Graph.addEdge, Graph.addEdge, a.checkEndpoints_eq]
  refine .bind_same _ fun _ => .ok ⟨a.nodeTable_eq, ?_, a.counter_eq, fun id => ?_, fun id => ?_⟩
  · rw [a.edgeTable_eq]
  · have row := a.neighbors_eq id
    simp only [neighbors] at row
    simp only [neighbors, Adjacency.successors_link, row]
  · have row := a.predecessors_eq id
    simp only [predecessors] at row
    simp only [predecessors, Adjacency.predecessors_link, row]

theorem removeEdge (source target : NodeId) :
    Option.Rel (fun x y => x.1 = y.1 ∧ x.2.Agrees y.2) (g.removeEdge source target)
      (h.removeEdge source target) := by
  rw [Graph.removeEdge, Graph.removeEdge, a.edge?_eq]
  cases h.edge? source target with
  | none => exact .none
  | some e =>
      refine .some ⟨rfl, a.nodeTable_eq, ?_, a.counter_eq, fun id => ?_, fun id => ?_⟩
      · rw [a.edgeTable_eq]
      · have row := a.neighbors_eq id
        simp only [neighbors] at row
        simp only [neighbors, Adjacency.successors_unlink, row]
      · have row := a.predecessors_eq id
        simp only [predecessors] at row
        simp only [predecessors, Adjacency.predecessors_unlink, row]

theorem removeNode (id : NodeId) :
    Option.Rel (fun x y => x.1 = y.1 ∧ x.2.1 = y.2.1 ∧ x.2.2.Agrees y.2.2) (g.removeNode id)
      (h.removeNode id) := by
  rw [Graph.removeNode, Graph.removeNode, a.node?_eq]
  cases h.node? id with
  | none => exact .none
  | some n =>
      refine .some ⟨rfl, ?_, ?_, ?_, a.counter_eq, fun j => ?_, fun j => ?_⟩
      · simp only [a.incident_eq, a.edgeTable_eq]
      · rw [a.nodeTable_eq]
      · simp only [a.incident_eq, a.edgeTable_eq]
      · have leaving := a.neighbors_eq j
        have entering := a.predecessors_eq id
        simp only [neighbors] at leaving
        simp only [predecessors] at entering
        simp only [neighbors, Adjacency.successors_detach, leaving, entering]
      · have leaving := a.neighbors_eq id
        have entering := a.predecessors_eq j
        simp only [neighbors] at leaving
        simp only [predecessors] at entering
        simp only [predecessors, Adjacency.predecessors_detach, leaving, entering]

end Changing
end Agrees
end WordGraph.Graph
