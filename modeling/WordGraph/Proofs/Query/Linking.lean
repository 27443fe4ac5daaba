import WordGraph.Proofs.Query.Effects
import WordGraph.Proofs.Query.Matching

/-!
Commands that put edges. Linking changes no node, so every hop of a CREATEEDGE selects its ends as if
it were the only one: what is put and bound for a hop is known from the graph before the command.
-/

namespace WordGraph

/-- Three patterns of a chain that stand one behind another, the outer ones for nodes. -/
structure Hop where
  source : Pattern
  relation : Pattern
  target : Pattern

def Hop.ofPatterns : List Pattern → List Hop
  | source :: relation :: target :: rest => ⟨source, relation, target⟩ :: ofPatterns (target :: rest)
  | _ => []

namespace Session

/-- The edges that a hop puts, from every node that its first pattern selects to every node that its
last one selects. -/
def linked (s : Session) (c : Command) (h : Hop) : List Edge :=
  (s.matched c h.source).ids.flatMap fun a =>
    (s.matched c h.target).ids.map fun b => ⟨a, b, h.relation.attributes⟩

variable {s t : Session}

theorem matched_of_nodeTable (same : t.graph.nodeTable = s.graph.nodeTable) (c : Command)
    (p : Pattern) : t.matched c p = s.matched c p := by
  simp only [matched, filtered, Graph.nodesWith, Graph.nodes, same]

theorem linked_of_nodeTable (same : t.graph.nodeTable = s.graph.nodeTable) (c : Command) (h : Hop) :
    t.linked c h = s.linked c h := by
  simp only [linked, matched_of_nodeTable same]

theorem flatMap_linked_of_nodeTable (same : t.graph.nodeTable = s.graph.nodeTable) (c : Command)
    (hops : List Hop) : hops.flatMap (t.linked c) = hops.flatMap (s.linked c) :=
  List.flatMap_congr fun h _ => linked_of_nodeTable same c h

theorem mem_keys_of_matched {c : Command} {p : Pattern} {id : NodeId}
    (h : id ∈ (s.matched c p).ids) : id ∈ s.graph.nodeTable.keys := by
  obtain ⟨n, stored, rfl, _⟩ := (selected_iff_mem s c p id).2 h
  exact s.graph.map_id_nodes ▸ List.mem_map_of_mem stored

theorem mem_linked_iff (s : Session) (c : Command) (h : Hop) (e : Edge) :
    e ∈ s.linked c h ↔
      s.Selected c h.source e.source ∧ s.Selected c h.target e.target ∧
        e.attributes = h.relation.attributes := by
  simp only [selected_iff_mem, linked, List.mem_flatMap, List.mem_map]
  constructor
  · intro ⟨a, ha, b, hb, same⟩
    exact same ▸ ⟨ha, hb, rfl⟩
  · intro ⟨ha, hb, attributes⟩
    exact ⟨e.source, ha, e.target, hb, by rw [← attributes]⟩

theorem ends_linked {c : Command} {h : Hop} {e : Edge} (put : e ∈ s.linked c h) :
    e.source ∈ s.graph.nodeTable.keys ∧ e.target ∈ s.graph.nodeTable.keys := by
  obtain ⟨source, target, _⟩ := (mem_linked_iff s c h e).1 put
  exact ⟨mem_keys_of_matched ((selected_iff_mem ..).1 source),
    mem_keys_of_matched ((selected_iff_mem ..).1 target)⟩

theorem ends_selectedPairs {c : Command} {p q : Pattern} {e : Endpoints}
    (h : e ∈ s.selectedPairs c p q) : e.1 ∈ s.graph.nodeTable.keys ∧ e.2 ∈ s.graph.nodeTable.keys := by
  obtain ⟨a, ha, h⟩ := List.mem_flatMap.1 h
  obtain ⟨b, hb, rfl⟩ := List.mem_map.1 h
  exact ⟨mem_keys_of_matched ha, mem_keys_of_matched hb⟩

theorem map_selectedPairs (s : Session) (c : Command) (h : Hop) :
    ((s.selectedPairs c h.source h.target).map fun e => ⟨e.1, e.2, h.relation.attributes⟩) =
      s.linked c h := by
  simp only [selectedPairs, List.map_flatMap, List.map_map]
  rfl

/-- The session behind the first hop of a CREATEEDGE. -/
def link (s : Session) (c : Command) (h : Hop) : Session :=
  bind { s with graph := (s.graph.connect h.relation.attributes ((s.matched c h.source).ids.flatMap
    fun a => (s.matched c h.target).ids.map fun b => (a, b))).1 } h.relation.identifier
      (.edges (s.linked c h))

theorem nodeTable_link (s : Session) (c : Command) (h : Hop) :
    (s.link c h).graph.nodeTable = s.graph.nodeTable := Graph.nodeTable_connect ..

theorem createEdges_cons (s : Session) (c : Command) (source relation target : Pattern)
    (rest : List Pattern) :
    (s.createEdges c (source :: relation :: target :: rest)).1 =
        ((s.link c ⟨source, relation, target⟩).createEdges c (target :: rest)).1 ∧
      (s.createEdges c (source :: relation :: target :: rest)).2.1 =
        s.linked c ⟨source, relation, target⟩ ++
          ((s.link c ⟨source, relation, target⟩).createEdges c (target :: rest)).2.1 := by
  have put : (s.graph.connect relation.attributes (s.selectedPairs c source target)).2 =
      s.linked c ⟨source, relation, target⟩ := by
    rw [Graph.edges_connect _ fun e he => ends_selectedPairs he]
    exact s.map_selectedPairs c ⟨source, relation, target⟩
  rw [selectedPairs] at put
  simp only [createEdges, put]
  exact ⟨rfl, rfl⟩

/-- What a CREATEEDGE leaves, answers and binds, hop by hop. -/
theorem createEdges_spec (s : Session) (c : Command) (ps : List Pattern) :
    (s.createEdges c ps).1.graph.nodeTable = s.graph.nodeTable ∧
      (s.createEdges c ps).2.1 = (Hop.ofPatterns ps).flatMap (s.linked c) ∧
      (s.createEdges c ps).1.bindings = (Hop.ofPatterns ps).foldl
        (fun b h => b.insert h.relation.identifier (.edges (s.linked c h))) s.bindings := by
  match ps with
  | [] | [_] | [_, _] => exact ⟨rfl, rfl, rfl⟩
  | source :: relation :: target :: rest =>
      obtain ⟨final, edges⟩ := createEdges_cons s c source relation target rest
      obtain ⟨kept, others, bound⟩ :=
        createEdges_spec (s.link c ⟨source, relation, target⟩) c (target :: rest)
      have same := s.nodeTable_link c ⟨source, relation, target⟩
      simp only [linked_of_nodeTable same] at bound
      rw [final, edges, kept, others, flatMap_linked_of_nodeTable same, bound, same, Hop.ofPatterns,
        List.flatMap_cons]
      exact ⟨rfl, rfl, rfl⟩

end Session
end WordGraph
