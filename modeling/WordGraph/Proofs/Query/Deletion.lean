import WordGraph.Proofs.Distinct
import WordGraph.Proofs.Query.Effects
import WordGraph.Proofs.Query.Reachable

/-!
The removal of nodes. Those with the listed identities go with all their edges, each of which is
reported once, though one node is removed after another and an edge may lie between two of them; all
else stays as it is and in its order. Of the names, those go that mention a listed identity.
-/

namespace WordGraph

namespace Graph

variable {g h k : Graph} {id : NodeId} {ids more : List NodeId} {removed later : GraphView}

/-- Says that a graph lost the nodes with the listed identities and the edges that touch one of them,
that these were reported, and that all else is as it was. -/
structure Loses (g : Graph) (ids : List NodeId) (removed : GraphView) (h : Graph) : Prop where
  nodes_removed : removed.nodes = ids.eraseDups.filterMap g.node?
  edges_nodup : removed.edges.Nodup
  mem_edges : ∀ e, e ∈ removed.edges ↔ e ∈ g.edges ∧ ids.any e.touches = true
  nodes_left : h.nodes = g.nodes.filter (·.id ∉ ids)
  edges_left : h.edges = g.edges.filter fun e => !ids.any e.touches
  counter_eq : h.counter = g.counter

namespace Loses

theorem nothing (g : Graph) : g.Loses [] ⟨[], []⟩ g where
  nodes_removed := rfl
  edges_nodup := List.nodup_nil
  mem_edges e := by simp
  nodes_left := by simp
  edges_left := by simp
  counter_eq := rfl

theorem node?_eq (l : g.Loses ids removed h) (id : NodeId) :
    h.node? id = if id ∈ ids then none else g.node? id := by
  ext n
  rw [node?_eq_some_iff, l.nodes_left, List.mem_filter]
  split
  · rename_i listed
    simp only [decide_eq_true_eq, reduceCtorEq, iff_false, not_and]
    intro ⟨_, stays⟩ same
    exact stays (same ▸ listed)
  · rename_i other
    rw [node?_eq_some_iff, decide_eq_true_eq]
    exact ⟨fun ⟨⟨stored, _⟩, same⟩ => ⟨stored, same⟩,
      fun ⟨stored, same⟩ => ⟨⟨stored, same ▸ other⟩, same⟩⟩

/-- What is removed later is not what was removed before, so the two reports have nothing in common. -/
theorem trans (first : g.Loses ids removed h) (second : h.Loses more later k) :
    g.Loses (ids ++ more) ⟨removed.nodes ++ later.nodes, removed.edges ++ later.edges⟩ k where
  nodes_removed := by
    have others : (more.removeAll ids).eraseDups.filterMap g.node? = later.nodes := by
      rw [List.removeAll, Distinct.eraseDups_filter, List.filterMap_filter, second.nodes_removed]
      refine List.filterMap_congr fun id _ => ?_
      rw [first.node?_eq]
      by_cases listed : id ∈ ids <;> simp [listed]
    rw [List.eraseDups_append, List.filterMap_append, others, ← first.nodes_removed]
  edges_nodup := by
    refine List.nodup_append.2 ⟨first.edges_nodup, second.edges_nodup, fun e he f hf same => ?_⟩
    have gone := ((first.mem_edges e).1 he).2
    have there := ((second.mem_edges f).1 hf).1
    rw [first.edges_left, List.mem_filter, ← same, gone] at there
    exact absurd there.2 (by simp)
  mem_edges e := by
    rw [List.mem_append, first.mem_edges, second.mem_edges, first.edges_left, List.mem_filter,
      List.any_append, Bool.or_eq_true, Bool.not_eq_true', ← Bool.not_eq_true]
    tauto
  nodes_left := by
    rw [second.nodes_left, first.nodes_left, List.filter_filter]
    refine List.filter_congr fun n _ => ?_
    simp [Bool.and_comm]
  edges_left := by
    rw [second.edges_left, first.edges_left, List.filter_filter]
    refine List.filter_congr fun e _ => ?_
    rw [List.any_append, Bool.not_or, Bool.and_comm]
  counter_eq := second.counter_eq.trans first.counter_eq

end Loses

section Steps

/-- The removal of one node. -/
theorem Coherent.loses_removeNode (hg : g.Coherent) {n : Node} {es : List Edge}
    (removed : g.removeNode id = some (n, es, h)) : g.Loses [id] ⟨[n], es⟩ h := by
  obtain ⟨found, reported, left⟩ := (removeNode_eq_some_iff ..).1 removed
  have distinct := hg.lists.incident_nodup g.edgeTable.keys_nodup id
  have listed : es = (g.adjacency.incident id).filterMap fun e => g.edge? e.1 e.2 :=
    reported.trans (takeEdges_fst g.edgeTable distinct)
  have touched (e : Edge) : [id].any e.touches = true ↔ e.source = id ∨ e.target = id := by
    simp [Edge.touches]
  constructor
  case nodes_removed =>
    simp [List.eraseDups_cons, found]
  case edges_nodup =>
    rw [listed]
    refine distinct.filterMap fun x y e hx hy => ?_
    exact ((edge?_eq_some_iff ..).1 hx).2.symm.trans ((edge?_eq_some_iff ..).1 hy).2
  case mem_edges =>
    intro e
    rw [listed, List.mem_filterMap, touched]
    constructor
    · intro ⟨ends, incident, here⟩
      obtain ⟨stored, same⟩ := (edge?_eq_some_iff ..).1 here
      obtain rfl : e.endpoints = ends := same
      exact ⟨stored, ((hg.lists.mem_incident ..).1 incident).2⟩
    · intro ⟨stored, atEnd⟩
      exact ⟨e.endpoints, (hg.lists.mem_incident ..).2 ⟨endpoints_mem stored, atEnd⟩,
        edge?_of_mem stored⟩
  case nodes_left =>
    rw [nodes_of_removeNode removed]
    simp
  case edges_left =>
    rw [left, edges, edges, g.edgeTable.values_filter fun e => e ∉ g.adjacency.incident id]
    refine List.filter_congr fun e he => ?_
    have stored : (e.source, e.target) ∈ g.edgeTable.keys := endpoints_mem he
    simp [hg.lists.mem_incident, stored, Edge.touches, Edge.endpoints]
  case counter_eq =>
    rw [left]

/-- An identity that no node has is on no edge. -/
theorem Coherent.loses_missing (hg : g.Coherent) (missing : g.node? id = none) :
    g.Loses [id] ⟨[], []⟩ g := by
  have unknown := (node?_eq_none_iff ..).1 missing
  have untouched : ∀ e ∈ g.edges, [id].any e.touches = false := by
    intro e he
    have source : e.source ≠ id := fun same => unknown (same ▸ hg.source_mem e he)
    have target : e.target ≠ id := fun same => unknown (same ▸ hg.target_mem e he)
    simp [Edge.touches, source, target]
  constructor
  case nodes_removed =>
    simp [List.eraseDups_cons, missing]
  case edges_nodup =>
    exact List.nodup_nil
  case mem_edges =>
    intro e
    refine iff_of_false List.not_mem_nil fun ⟨he, touched⟩ => ?_
    rw [untouched e he] at touched
    cases touched
  case nodes_left =>
    refine (List.filter_eq_self.2 fun n hn => ?_).symm
    have stored : n.id ∈ g.nodeTable.keys := g.map_id_nodes ▸ List.mem_map_of_mem hn
    have other : n.id ≠ id := fun same => unknown (same ▸ stored)
    simp [other]
  case edges_left =>
    refine (List.filter_eq_self.2 fun e he => ?_).symm
    rw [untouched e he]
    rfl
  case counter_eq =>
    rfl

end Steps

/-- One node is removed after another, from a graph that stays coherent. -/
theorem Coherent.loses_removeNodes (hg : g.Coherent) (ids : List NodeId) :
    g.Loses ids (g.removeNodes ids).2 (g.removeNodes ids).1 := by
  induction ids generalizing g with
  | nil => exact .nothing g
  | cons id rest ih =>
      rw [removeNodes]
      split
      · rename_i removed
        exact (hg.loses_removeNode removed).trans (ih (hg.removeNode removed))
      · rename_i missing
        have unknown : g.node? id = none := Option.map_eq_none_iff.1 missing
        exact (hg.loses_missing unknown).trans (ih hg)

namespace Loses

theorem keys_left (l : g.Loses ids removed h) :
    h.edgeTable.keys = g.edgeTable.keys.filter fun e => e.1 ∉ ids && e.2 ∉ ids := by
  rw [← map_endpoints_edges, ← map_endpoints_edges, l.edges_left, List.filter_map]
  refine congrArg (List.map _) (List.filter_congr fun e _ => ?_)
  rw [Function.comp_apply, Edge.endpoints, ← Bool.decide_and, Bool.eq_iff_iff, decide_eq_true_eq]
  simp [Edge.touches, forall_and, imp_not_comm]

/-- A row that starts at a listed identity is gone, and every other one loses what is listed. -/
theorem row_eq (l : g.Loses ids removed h) (key value : Endpoints → NodeId) (id : NodeId)
    (ends : ∀ e : Endpoints, (e.1 ∉ ids && e.2 ∉ ids) = (key e ∉ ids && value e ∉ ids)) :
    (h.edgeTable.keys.filter (key · = id)).map value =
      if id ∈ ids then [] else ((g.edgeTable.keys.filter (key · = id)).map value).filter (· ∉ ids) := by
  rw [l.keys_left]
  split
  · rename_i listed
    rw [Adjacency.row_filter _ key value fun e starts => ?_, List.filter_false]
    rw [ends, starts, decide_eq_false (not_not_intro listed), Bool.false_and]
  · rename_i other
    refine Adjacency.row_filter _ key value fun e starts => ?_
    rw [ends, starts, decide_eq_true other, Bool.true_and]

theorem neighbors_eq (l : g.Loses ids removed h) (hg : g.Coherent) (hh : h.Coherent) (id : NodeId) :
    h.neighbors id = if id ∈ ids then [] else (g.neighbors id).filter (· ∉ ids) := by
  rw [neighbors, neighbors, hh.lists.successors_eq, hg.lists.successors_eq]
  exact l.row_eq Prod.fst Prod.snd id fun _ => rfl

theorem predecessors_eq (l : g.Loses ids removed h) (hg : g.Coherent) (hh : h.Coherent)
    (id : NodeId) :
    h.predecessors id = if id ∈ ids then [] else (g.predecessors id).filter (· ∉ ids) := by
  rw [predecessors, predecessors, hh.lists.predecessors_eq, hg.lists.predecessors_eq]
  exact l.row_eq Prod.snd Prod.fst id fun _ => Bool.and_comm ..

/-- The edges that touch a listed identity are those at a node that was removed. -/
theorem touches_iff (l : g.Loses ids removed h) (hg : g.Coherent) {e : Edge} (he : e ∈ g.edges) :
    ids.any e.touches = true ↔ ∃ n ∈ removed.nodes, e.touches n.id = true := by
  simp only [List.any_eq_true, l.nodes_removed, List.mem_filterMap, List.mem_eraseDups]
  constructor
  · intro ⟨id, listed, touched⟩
    have stored : id ∈ g.nodeTable.keys := by
      rw [Edge.touches, Bool.or_eq_true, decide_eq_true_eq, decide_eq_true_eq] at touched
      rcases touched with same | same
      · exact same ▸ hg.source_mem e he
      · exact same ▸ hg.target_mem e he
    obtain ⟨n, found, same⟩ := exists_node? stored
    exact ⟨n, ⟨id, listed, found⟩, same.symm ▸ touched⟩
  · intro ⟨n, ⟨id, listed, found⟩, touched⟩
    exact ⟨id, listed, ((node?_eq_some_iff ..).1 found).2 ▸ touched⟩

end Loses

end Graph

namespace Session

/-- In every session, whatever identities are listed, repeated and unknown ones included: the nodes
with these identities are removed and reported, each once; so are the edges that touch one of them,
and everything that is left is as it was. -/
theorem removeNodes_exact {s : Session} (attainable : s.Attainable) (ids : List NodeId) :
    s.graph.Loses ids (s.removeNodes ids).2 (s.removeNodes ids).1.graph ∧
    (∀ e ∈ s.graph.edges, ids.any e.touches = true ↔
      ∃ n ∈ (s.removeNodes ids).2.nodes, e.touches n.id = true) ∧
    (∀ id, (s.removeNodes ids).1.graph.neighbors id =
      if id ∈ ids then [] else (s.graph.neighbors id).filter (· ∉ ids)) ∧
    (∀ id, (s.removeNodes ids).1.graph.predecessors id =
      if id ∈ ids then [] else (s.graph.predecessors id).filter (· ∉ ids)) ∧
    (s.removeNodes ids).1.bindings.entries =
      s.bindings.entries.filter fun b => ∀ id ∈ b.2.ids, id ∉ ids := by
  have before := attainable.sound.coherent
  have after := (attainable.removed ids).sound.coherent
  have lost : s.graph.Loses ids (s.removeNodes ids).2 (s.removeNodes ids).1.graph :=
    before.loses_removeNodes ids
  refine ⟨lost, fun e he => lost.touches_iff before he, lost.neighbors_eq before after,
    lost.predecessors_eq before after, ?_⟩
  refine List.filter_congr fun b _ => ?_
  rw [Bool.eq_iff_iff]
  simp [Binding.mentions]

/-- A node on a loop and one that is joined to it in both directions are listed, the first of them
twice, with an identity that is unknown. -/
theorem removeNodes_exact_loop :
    ∃ g, Graph.ofParts [⟨⟨1⟩, ∅⟩, ⟨⟨2⟩, ∅⟩, ⟨⟨3⟩, ∅⟩, ⟨⟨4⟩, ∅⟩]
        [⟨⟨3⟩, ⟨4⟩, ∅⟩, ⟨⟨1⟩, ⟨1⟩, ∅⟩, ⟨⟨1⟩, ⟨2⟩, ∅⟩, ⟨⟨2⟩, ⟨1⟩, ∅⟩, ⟨⟨3⟩, ⟨1⟩, ∅⟩] 4 = .ok g ∧
      let s := ((ofGraph g).bind "old" (.edges [⟨⟨1⟩, ⟨2⟩, ∅⟩])).bind "kept" (.node ⟨⟨3⟩, ∅⟩)
      let t := s.removeNodes [⟨1⟩, ⟨9⟩, ⟨2⟩, ⟨1⟩]
      t.2 = ⟨[⟨⟨1⟩, ∅⟩, ⟨⟨2⟩, ∅⟩],
        [⟨⟨1⟩, ⟨1⟩, ∅⟩, ⟨⟨1⟩, ⟨2⟩, ∅⟩, ⟨⟨2⟩, ⟨1⟩, ∅⟩, ⟨⟨3⟩, ⟨1⟩, ∅⟩]⟩ ∧
      s.graph.Loses [⟨1⟩, ⟨9⟩, ⟨2⟩, ⟨1⟩] t.2 t.1.graph ∧ t.1.graph.neighbors ⟨3⟩ = [⟨4⟩] ∧
      t.1.bindings.entries = [("kept", .node ⟨⟨3⟩, ∅⟩)] := by
  have built : Graph.ofParts [⟨⟨1⟩, ∅⟩, ⟨⟨2⟩, ∅⟩, ⟨⟨3⟩, ∅⟩, ⟨⟨4⟩, ∅⟩]
      [⟨⟨3⟩, ⟨4⟩, ∅⟩, ⟨⟨1⟩, ⟨1⟩, ∅⟩, ⟨⟨1⟩, ⟨2⟩, ∅⟩, ⟨⟨2⟩, ⟨1⟩, ∅⟩, ⟨⟨3⟩, ⟨1⟩, ∅⟩] 4 = .ok _ := rfl
  refine ⟨_, built, ?_⟩
  intro s t
  have attainable : s.Attainable := .bound (.bound (.made (.parts built) ∅) ..) ..
  obtain ⟨lost, _, neighbors, _, names⟩ := removeNodes_exact attainable [⟨1⟩, ⟨9⟩, ⟨2⟩, ⟨1⟩]
  exact ⟨by decide +kernel, lost, (neighbors ⟨3⟩).trans (by decide +kernel),
    names.trans (by decide +kernel)⟩

end Session
end WordGraph
