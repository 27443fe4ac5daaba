import WordGraph.Proofs.Catalog
import WordGraph.Proofs.Graph.Select
import WordGraph.Query.Session

/-!
What the parts of commands that go over a list of nodes or edges do to the nodes of a graph, and what
they answer: links and changes of edges leave the table of nodes alone, a change of nodes keeps their
identities, and a removal takes away the nodes that it is given and no others.
-/

namespace WordGraph.Graph

variable {g : Graph}

theorem nodeTable_addEdge {h : Graph} {source target : NodeId} {attributes : Attributes}
    (added : g.addEdge source target attributes = .ok h) : h.nodeTable = g.nodeTable := by
  obtain ⟨_, rfl⟩ := (addEdge_eq_ok_iff ..).1 added
  rfl

theorem nodeTable_connect (g : Graph) (attributes : Attributes) (pairs : List Endpoints) :
    (g.connect attributes pairs).1.nodeTable = g.nodeTable := by
  induction pairs generalizing g with
  | nil => rfl
  | cons e rest ih =>
      rw [connect]
      split
      · rename_i linked added
        exact (ih linked).trans (nodeTable_addEdge added)
      · exact ih g

/-- Between nodes every edge is put. -/
theorem edges_connect (attributes : Attributes) {pairs : List Endpoints}
    (stored : ∀ e ∈ pairs, e.1 ∈ g.nodeTable.keys ∧ e.2 ∈ g.nodeTable.keys) :
    (g.connect attributes pairs).2 = pairs.map fun e => ⟨e.1, e.2, attributes⟩ := by
  induction pairs generalizing g with
  | nil => rfl
  | cons e rest ih =>
      have added := (addEdge_eq_ok_iff g _ e.1 e.2 attributes).2 ⟨stored e (List.mem_cons_self ..), rfl⟩
      have others := ih (g := { g with
        edgeTable := g.edgeTable.insert (e.1, e.2) ⟨e.1, e.2, attributes⟩ (Edge.endpoints_mk ..)
        adjacency := g.adjacency.link e.1 e.2 }) fun f hf => stored f (List.mem_cons_of_mem _ hf)
      rw [connect, added, List.map_cons]
      exact congrArg (List.cons _) others

theorem nodeTable_removeEdge {h : Graph} {source target : NodeId} {e : Edge}
    (removed : g.removeEdge source target = some (e, h)) : h.nodeTable = g.nodeTable := by
  obtain ⟨_, rfl⟩ := (removeEdge_eq_some_iff ..).1 removed
  rfl

theorem nodeTable_removeEdges (g : Graph) (ends : List Endpoints) :
    (g.removeEdges ends).1.nodeTable = g.nodeTable := by
  induction ends generalizing g with
  | nil => rfl
  | cons e rest ih =>
      rw [removeEdges]
      split
      · rename_i edge smaller removed
        exact (ih smaller).trans (nodeTable_removeEdge removed)
      · exact ih g

section Changes

variable (add : Bool) (update : Attributes)

theorem changeNodes_eq (g : Graph) (ids : List NodeId) :
    (g.changeNodes add update ids).1 = { g with
      nodeTable := g.nodeTable.modifyAll (Node.edit (change add · update)) (Node.id_edit _) ids } := by
  induction ids generalizing g with
  | nil => rfl
  | cons id rest ih => exact ih (g.modifyNode id (change add · update))

theorem changeEdges_eq (g : Graph) (ends : List Endpoints) :
    (g.changeEdges add update ends).1 = { g with
      edgeTable :=
        g.edgeTable.modifyAll (Edge.edit (change add · update)) (Edge.endpoints_edit _) ends } := by
  induction ends generalizing g with
  | nil => rfl
  | cons e rest ih => exact ih (g.modifyEdge e.1 e.2 (change add · update))

theorem nodeTable_changeEdges (g : Graph) (ends : List Endpoints) :
    (g.changeEdges add update ends).1.nodeTable = g.nodeTable := by
  rw [changeEdges_eq]

theorem keys_changeNodes (g : Graph) (ids : List NodeId) :
    (g.changeNodes add update ids).1.nodeTable.keys = g.nodeTable.keys := by
  induction ids generalizing g with
  | nil => rfl
  | cons id rest ih =>
      refine (ih (g.modifyNode id (change add · update))).trans ?_
      exact OrderedMap.keys_modify ..

theorem node?_changeNodes (g : Graph) {ids : List NodeId} {id : NodeId} (other : id ∉ ids) :
    (g.changeNodes add update ids).1.node? id = g.node? id := by
  induction ids generalizing g with
  | nil => rfl
  | cons first rest ih =>
      rw [List.mem_cons, not_or] at other
      refine (ih (g.modifyNode first (change add · update)) other.2).trans ?_
      rw [node?, node?, modifyNode, Catalog.toOrderedMap_modify, OrderedMap.find?_modify,
        if_neg (Ne.symm other.1)]

/-- A change answers with the nodes that it was given. -/
theorem ids_changeNodes {ids : List NodeId} (stored : ∀ id ∈ ids, id ∈ g.nodeTable.keys) :
    (g.changeNodes add update ids).2.map Node.id = ids := by
  induction ids generalizing g with
  | nil => rfl
  | cons id rest ih =>
      have kept : (g.modifyNode id (change add · update)).nodeTable.keys = g.nodeTable.keys :=
        OrderedMap.keys_modify ..
      have others := ih (g := g.modifyNode id (change add · update)) fun other h =>
        kept ▸ stored other (List.mem_cons_of_mem _ h)
      have known : id ∈ (g.modifyNode id (change add · update)).nodeTable.keys :=
        kept ▸ stored id (List.mem_cons_self ..)
      obtain ⟨n, found, named⟩ := exists_node? known
      rw [changeNodes, List.map_append, others, found]
      exact congrArg (· :: rest) named

end Changes

section Removals

theorem node?_of_removeNode {h : Graph} {id : NodeId} {n : Node} {es : List Edge}
    (removed : g.removeNode id = some (n, es, h)) :
    g.node? id = some n ∧ h.nodeTable = g.nodeTable.erase id := by
  obtain ⟨found, _, rfl⟩ := (removeNode_eq_some_iff ..).1 removed
  exact ⟨found, rfl⟩

theorem nodes_of_removeNode {h : Graph} {id : NodeId} {n : Node} {es : List Edge}
    (removed : g.removeNode id = some (n, es, h)) : h.nodes = g.nodes.filter (·.id ≠ id) := by
  rw [nodes, nodes, (node?_of_removeNode removed).2]
  exact g.nodeTable.values_erase id

theorem mem_nodes_of_removeNode {h : Graph} {id : NodeId} {n : Node} {es : List Edge}
    (removed : g.removeNode id = some (n, es, h)) (m : Node) :
    m ∈ h.nodes ↔ m ∈ g.nodes ∧ m.id ≠ id := by
  rw [nodes_of_removeNode removed, List.mem_filter, decide_eq_true_eq]

/-- A removal leaves the nodes that it was not given. -/
theorem mem_nodes_removeNodes (g : Graph) (ids : List NodeId) (m : Node) :
    m ∈ (g.removeNodes ids).1.nodes ↔ m ∈ g.nodes ∧ m.id ∉ ids := by
  induction ids generalizing g with
  | nil => exact ⟨fun h => ⟨h, List.not_mem_nil⟩, And.left⟩
  | cons id rest ih =>
      rw [removeNodes, List.mem_cons, not_or, ← and_assoc]
      split
      · rename_i node edges smaller removed
        refine (ih smaller).trans ?_
        rw [mem_nodes_of_removeNode removed]
      · rename_i missing
        have unknown : g.node? id = none := by simpa [removeNode] using missing
        rw [ih g]
        refine and_congr_left fun _ => ⟨fun stored => ⟨stored, fun same => ?_⟩, And.left⟩
        have found := (node?_eq_some_iff g id m).2 ⟨stored, same⟩
        rw [unknown] at found
        cases found

/-- It answers with the others, if it was given no node twice. -/
theorem nodes_removeNodes {ids : List NodeId} (distinct : ids.Nodup)
    (stored : ∀ id ∈ ids, id ∈ g.nodeTable.keys) :
    (g.removeNodes ids).2.nodes.map Node.id = ids ∧ ∀ n ∈ (g.removeNodes ids).2.nodes, n ∈ g.nodes := by
  induction ids generalizing g with
  | nil => exact ⟨rfl, fun n hn => nomatch hn⟩
  | cons id rest ih =>
      obtain ⟨new, distinct⟩ := List.nodup_cons.1 distinct
      obtain ⟨n, found, _⟩ := exists_node? (stored id (List.mem_cons_self ..))
      obtain ⟨⟨node, edges, smaller⟩, removed⟩ : ∃ r, g.removeNode id = some r := by
        rw [removeNode, found]
        exact ⟨_, rfl⟩
      obtain ⟨same, erased⟩ := node?_of_removeNode removed
      have known : ∀ other ∈ rest, other ∈ smaller.nodeTable.keys := by
        intro other h
        rw [erased, Catalog.toOrderedMap_erase, OrderedMap.keys_erase, List.mem_filter, decide_eq_true_eq]
        exact ⟨stored other (List.mem_cons_of_mem _ h), fun e => new (e ▸ h)⟩
      obtain ⟨named, old⟩ := ih distinct known
      obtain ⟨here, same⟩ := (node?_eq_some_iff ..).1 same
      rw [removeNodes, removed]
      refine ⟨?_, fun m hm => ?_⟩
      · rw [List.map_cons, named, same]
      · cases List.mem_cons.1 hm with
        | inl first => exact first ▸ here
        | inr later => exact ((mem_nodes_of_removeNode removed m).1 (old m later)).1

end Removals

end WordGraph.Graph
