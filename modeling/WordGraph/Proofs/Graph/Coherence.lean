import WordGraph.Graph.Basic
import WordGraph.Proofs.Graph.Adjacency

/-!
Coherence of graphs and what keeps it. A graph is sound if it is coherent and no node has an
identity above the counter; every operation gives a sound graph from a sound one, and so does the
building of a graph from lists of nodes and edges, repeated ones included.
-/

namespace WordGraph.Graph

theorem map_endpoints_edges (g : Graph) : g.edges.map Edge.endpoints = g.edgeTable.keys :=
  g.edgeTable.map_key_values

theorem map_id_nodes (g : Graph) : g.nodes.map Node.id = g.nodeTable.keys :=
  g.nodeTable.map_key_values

theorem endpoints_mem {g : Graph} {e : Edge} (h : e ∈ g.edges) :
    (e.source, e.target) ∈ g.edgeTable.keys := by
  rw [← map_endpoints_edges]
  exact List.mem_map_of_mem h

theorem targets_from (g : Graph) (id : NodeId) :
    (g.edges.filter (·.source = id)).map Edge.target =
      (g.edgeTable.keys.filter (·.1 = id)).map Prod.snd := by
  rw [← map_endpoints_edges, List.filter_map, List.map_map]
  rfl

theorem sources_to (g : Graph) (id : NodeId) :
    (g.edges.filter (·.target = id)).map Edge.source =
      (g.edgeTable.keys.filter (·.2 = id)).map Prod.fst := by
  rw [← map_endpoints_edges, List.filter_map, List.map_map]
  rfl

/-- Says that both ends of every edge are nodes. -/
def Anchored (g : Graph) : Prop :=
  ∀ e ∈ g.edgeTable.keys, e.1 ∈ g.nodeTable.keys ∧ e.2 ∈ g.nodeTable.keys

theorem coherent_iff (g : Graph) :
    g.Coherent ↔ g.Anchored ∧ g.adjacency.Lists g.edgeTable.keys := by
  constructor
  · intro h
    refine ⟨fun e he => ?_, fun id => ?_, fun id => ?_⟩
    · rw [← map_endpoints_edges] at he
      obtain ⟨edge, hedge, rfl⟩ := List.mem_map.1 he
      exact ⟨h.source_mem edge hedge, h.target_mem edge hedge⟩
    · exact (h.neighbors_eq id).trans (targets_from g id)
    · exact (h.predecessors_eq id).trans (sources_to g id)
  · intro ⟨anchored, lists⟩
    exact ⟨fun e he => (anchored _ (endpoints_mem he)).1, fun e he => (anchored _ (endpoints_mem he)).2,
      fun id => (lists.successors_eq id).trans (targets_from g id).symm,
      fun id => (lists.predecessors_eq id).trans (sources_to g id).symm⟩

theorem Coherent.anchored {g : Graph} (h : g.Coherent) : g.Anchored := ((coherent_iff g).1 h).1

theorem Coherent.lists {g : Graph} (h : g.Coherent) : g.adjacency.Lists g.edgeTable.keys :=
  ((coherent_iff g).1 h).2

theorem Coherent.of_lists {g : Graph} (anchored : g.Anchored)
    (lists : g.adjacency.Lists g.edgeTable.keys) : g.Coherent := (coherent_iff g).2 ⟨anchored, lists⟩

theorem coherent_empty : (∅ : Graph).Coherent :=
  .of_lists (fun _ he => nomatch he) Adjacency.lists_empty

/-- More nodes, with the same edges, leave a graph coherent. -/
theorem Coherent.grow {g : Graph} (h : g.Coherent) (t : Catalog Node.id) (n : UInt64)
    (grown : ∀ id ∈ g.nodeTable.keys, id ∈ t.keys) :
    ({ g with nodeTable := t, counter := n } : Graph).Coherent :=
  .of_lists (fun e he => ⟨grown _ (h.anchored e he).1, grown _ (h.anchored e he).2⟩) h.lists

theorem hasNode_iff (g : Graph) (id : NodeId) : g.hasNode id = true ↔ id ∈ g.nodeTable.keys :=
  g.nodeTable.contains_iff_mem_keys id

theorem checkEndpoints_eq_ok_iff (g : Graph) (source target : NodeId) :
    g.checkEndpoints source target = .ok () ↔
      source ∈ g.nodeTable.keys ∧ target ∈ g.nodeTable.keys := by
  simp only [← hasNode_iff, checkEndpoints]
  cases g.hasNode source <;> cases g.hasNode target <;> simp

theorem addEdge_eq_ok_iff (g h : Graph) (source target : NodeId) (attributes : Attributes) :
    g.addEdge source target attributes = .ok h ↔
      (source ∈ g.nodeTable.keys ∧ target ∈ g.nodeTable.keys) ∧
        h = { g with
          edgeTable :=
            g.edgeTable.insert (source, target) ⟨source, target, attributes⟩ (Edge.endpoints_mk ..)
          adjacency := g.adjacency.link source target } := by
  rw [← checkEndpoints_eq_ok_iff, addEdge]
  cases g.checkEndpoints source target with
  | error fault => simp [bind, Except.bind]
  | ok u => simp [bind, Except.bind, pure, Except.pure, eq_comm]

theorem removeEdge_eq_some_iff (g h : Graph) (source target : NodeId) (e : Edge) :
    g.removeEdge source target = some (e, h) ↔
      g.edge? source target = some e ∧
        h = { g with
          edgeTable := g.edgeTable.erase (source, target)
          adjacency := g.adjacency.unlink source target } := by
  rw [removeEdge, Option.map_eq_some_iff]
  constructor
  · rintro ⟨_, found, same⟩
    obtain ⟨rfl, rfl⟩ := Prod.mk.inj same
    exact ⟨found, rfl⟩
  · rintro ⟨found, rfl⟩
    exact ⟨e, found, rfl⟩

theorem takeEdges_snd (t : Catalog Edge.endpoints) (ends : List Endpoints) :
    (takeEdges t ends).2 = t.filter fun e _ => e ∉ ends := by
  induction ends generalizing t with
  | nil =>
      refine Catalog.ext_map (OrderedMap.ext_entries (List.filter_eq_self.2 fun e _ => ?_).symm)
      exact decide_eq_true List.not_mem_nil
  | cons e ends ih =>
      refine (ih (t.erase e)).trans (Catalog.ext_map (OrderedMap.ext_entries ?_))
      simp only [Catalog.toOrderedMap_filter, Catalog.toOrderedMap_erase, OrderedMap.erase,
        OrderedMap.filter, List.filter_filter]
      refine List.filter_congr fun f _ => ?_
      simp [Bool.and_comm]

/-- Of ends that are listed once, none is looked up after it was taken out. -/
theorem takeEdges_fst (t : Catalog Edge.endpoints) {ends : List Endpoints}
    (distinct : ends.Nodup) : (takeEdges t ends).1 = ends.filterMap t.find? := by
  induction ends generalizing t with
  | nil => rfl
  | cons e rest ih =>
      obtain ⟨other, distinct⟩ := List.nodup_cons.1 distinct
      have untouched (f : Endpoints) (hf : f ∈ rest) : (t.erase e).find? f = t.find? f := by
        have different : ¬e = f := fun same => other (same ▸ hf)
        rw [Catalog.toOrderedMap_erase, OrderedMap.find?_erase, if_neg different]
      have later := (ih (t.erase e) distinct).trans
        (List.filterMap_congr fun f hf => by rw [untouched f hf])
      rw [takeEdges, later, List.filterMap_cons]
      cases t.find? e <;> rfl

theorem removeNode_eq_some_iff (g h : Graph) (id : NodeId) (n : Node) (es : List Edge) :
    g.removeNode id = some (n, es, h) ↔
      g.node? id = some n ∧
        es = (takeEdges g.edgeTable (g.adjacency.incident id)).1 ∧
        h = { g with
          nodeTable := g.nodeTable.erase id
          edgeTable := g.edgeTable.filter fun e _ => e ∉ g.adjacency.incident id
          adjacency := g.adjacency.detach id } := by
  rw [removeNode, Option.map_eq_some_iff, ← takeEdges_snd]
  constructor
  · rintro ⟨_, found, same⟩
    simp only [Prod.mk.injEq] at same
    obtain ⟨rfl, rfl, rfl⟩ := same
    exact ⟨found, rfl, rfl⟩
  · rintro ⟨found, rfl, rfl⟩
    exact ⟨n, found, rfl⟩

theorem Coherent.addEdge {g h : Graph} (hg : g.Coherent) {source target : NodeId}
    {attributes : Attributes} (added : g.addEdge source target attributes = .ok h) : h.Coherent := by
  obtain ⟨⟨hs, ht⟩, rfl⟩ := (addEdge_eq_ok_iff ..).1 added
  refine .of_lists (fun e he => ?_) ?_
  · rcases (OrderedMap.mem_keys_insert ..).1 he with he | rfl
    · exact hg.anchored e he
    · exact ⟨hs, ht⟩
  · simp only [Catalog.toOrderedMap_insert, OrderedMap.keys_insert]
    split
    · rename_i known
      exact hg.lists.link_known known
    · rename_i new
      exact hg.lists.link_new new

theorem Coherent.modifyNode {g : Graph} (h : g.Coherent) (id : NodeId)
    (f : Attributes → Attributes) : (g.modifyNode id f).Coherent :=
  h.grow _ g.counter fun j hj => by rwa [Catalog.toOrderedMap_modify, OrderedMap.keys_modify]

theorem Coherent.modifyEdge {g : Graph} (h : g.Coherent) (source target : NodeId)
    (f : Attributes → Attributes) : (g.modifyEdge source target f).Coherent := by
  refine .of_lists (fun e he => ?_) ?_
  · simp only [Graph.modifyEdge, Catalog.toOrderedMap_modify, OrderedMap.keys_modify] at he
    exact h.anchored e he
  · simp only [Graph.modifyEdge, Catalog.toOrderedMap_modify, OrderedMap.keys_modify]
    exact h.lists

theorem Coherent.removeEdge {g h : Graph} (hg : g.Coherent) {source target : NodeId} {e : Edge}
    (removed : g.removeEdge source target = some (e, h)) : h.Coherent := by
  obtain ⟨_, rfl⟩ := (removeEdge_eq_some_iff ..).1 removed
  refine .of_lists (fun e he => ?_) ?_
  · simp only [Catalog.toOrderedMap_erase, OrderedMap.keys_erase] at he
    exact hg.anchored e (List.mem_of_mem_filter he)
  · simp only [Catalog.toOrderedMap_erase, OrderedMap.keys_erase]
    exact hg.lists.unlink source target

/-- Behind the removal of a node the table of edges keeps those that do not touch it. -/
theorem Coherent.keys_removeNode {g : Graph} (h : g.Coherent) (id : NodeId) :
    (g.edgeTable.filter fun e _ => e ∉ g.adjacency.incident id).keys =
      g.edgeTable.keys.filter fun e => e.1 ≠ id && e.2 ≠ id := by
  rw [Catalog.toOrderedMap_filter, OrderedMap.keys_filter]
  refine List.filter_congr fun e he => ?_
  simp [h.lists.mem_incident, he]

theorem Coherent.removeNode {g h : Graph} (hg : g.Coherent) {id : NodeId} {n : Node}
    {es : List Edge} (removed : g.removeNode id = some (n, es, h)) : h.Coherent := by
  obtain ⟨_, _, rfl⟩ := (removeNode_eq_some_iff ..).1 removed
  refine .of_lists (fun e he => ?_) ?_
  · simp only [hg.keys_removeNode, List.mem_filter, Bool.and_eq_true, decide_eq_true_eq] at he
    obtain ⟨hmem, hs, ht⟩ := he
    simp only [Catalog.toOrderedMap_erase, OrderedMap.keys_erase, List.mem_filter, decide_eq_true_eq]
    exact ⟨⟨(hg.anchored e hmem).1, hs⟩, (hg.anchored e hmem).2, ht⟩
  · simp only [hg.keys_removeNode]
    exact hg.lists.detach id

end WordGraph.Graph
