import WordGraph.Proofs.Catalog
import WordGraph.Proofs.Graph.Run

/-!
Edges that are put again. In a coherent graph every edge of the table is in the adjacency, so putting
edges a second time touches neither the rows of the adjacency nor the order of the table, and every
edge ends up with the attributes that it was given last.
-/

namespace WordGraph

theorem Adjacency.link_of_linked {a : Adjacency} {source target : NodeId}
    (leaving : target ∈ a.successors source) (entering : source ∈ a.predecessors target) :
    a.link source target = a := by
  have row (t : OrderedMap NodeId (List NodeId)) (id : NodeId) {x : NodeId}
      (there : x ∈ (t.find? id).getD []) : t.insert id ((t.find? id).getD []) = t := by
    cases found : t.find? id with
    | none => simp [found] at there
    | some xs => exact OrderedMap.insert_of_find? found
  rw [link, addLast, if_pos leaving, addLast, if_pos entering, successors, predecessors,
    row a.outgoing source leaving, row a.incoming target entering]

namespace Graph

variable {g : Graph} {es : List Edge}

/-- The graph with an edge between two nodes that it has. -/
def put (g : Graph) (e : Edge) : Graph :=
  { g with
    edgeTable := g.edgeTable.insert e.endpoints e rfl
    adjacency := g.adjacency.link e.source e.target }

/-- Says that both ends of an edge are nodes. -/
def HasEnds (g : Graph) (e : Edge) : Prop :=
  e.source ∈ g.nodeTable.keys ∧ e.target ∈ g.nodeTable.keys

theorem addEdge_eq_put {e : Edge} (ends : g.HasEnds e) :
    g.addEdge e.source e.target e.attributes = .ok (g.put e) :=
  (addEdge_eq_ok_iff ..).2 ⟨ends, rfl⟩

theorem foldl_put (g : Graph) (es : List Edge) :
    es.foldl put g = { g with
      edgeTable := g.edgeTable.putAll es
      adjacency := es.foldl (fun a e => a.link e.source e.target) g.adjacency } := by
  induction es generalizing g with
  | nil => rfl
  | cons e es ih => exact ih (g.put e)

theorem Coherent.put (h : g.Coherent) {e : Edge} (ends : g.HasEnds e) : (g.put e).Coherent :=
  h.addEdge (addEdge_eq_put ends)

theorem Coherent.foldl_put (h : g.Coherent) (ends : ∀ e ∈ es, g.HasEnds e) :
    (es.foldl Graph.put g).Coherent := by
  induction es generalizing g with
  | nil => exact h
  | cons e es ih =>
      exact ih (h.put (ends e (List.mem_cons_self ..))) fun f hf => ends f (List.mem_cons_of_mem _ hf)

theorem Coherent.link_of_mem (h : g.Coherent) {e : Endpoints} (known : e ∈ g.edgeTable.keys) :
    g.adjacency.link e.1 e.2 = g.adjacency :=
  Adjacency.link_of_linked ((h.lists.mem_successors ..).2 known) ((h.lists.mem_predecessors ..).2 known)

theorem Coherent.links_of_mem (h : g.Coherent) {ends : List Endpoints}
    (known : ∀ e ∈ ends, e ∈ g.edgeTable.keys) :
    ends.foldl (fun a e => a.link e.1 e.2) g.adjacency = g.adjacency := by
  induction ends with
  | nil => rfl
  | cons e ends ih =>
      rw [List.foldl_cons, h.link_of_mem (known e (List.mem_cons_self ..))]
      exact ih fun f hf => known f (List.mem_cons_of_mem _ hf)

theorem Coherent.foldl_put_again (h : g.Coherent) (ends : ∀ e ∈ es, g.HasEnds e) :
    es.foldl Graph.put (es.foldl Graph.put g) = es.foldl Graph.put g := by
  have coherent := h.foldl_put ends
  have rows : es.foldl (fun a e => a.link e.source e.target) (es.foldl Graph.put g).adjacency =
      (es.foldl Graph.put g).adjacency := by
    have known : ∀ e ∈ es.map Edge.endpoints, e ∈ (es.foldl Graph.put g).edgeTable.keys := by
      intro e he
      obtain ⟨f, hf, rfl⟩ := List.mem_map.1 he
      rw [Graph.foldl_put]
      exact g.edgeTable.mem_keys_putAll hf
    exact List.foldl_map.symm.trans (coherent.links_of_mem known)
  rw [Graph.foldl_put (es.foldl Graph.put g), rows, Graph.foldl_put g, g.edgeTable.putAll_again es]

end Graph
end WordGraph
