import WordGraph.Proofs.Snapshot.Trust

/-!
New nodes in a graph that was put together from parts or read from a snapshot. The counter comes
with the parts and no node is above it, so the identity behind it is free; only the last value of the
counter has none behind it.
-/

namespace WordGraph.Graph

variable {g h : Graph} {attributes : Attributes} {counter : UInt64}

/-- What an added node makes of a graph: it stands behind the others under an identity above all of
theirs, and the nodes and edges that were there stay as they were. -/
structure Grows (g h : Graph) (id : NodeId) (attributes : Attributes) : Prop where
  above : ∀ n ∈ g.nodes, n.id.value < id.value
  unused : g.hasNode id = false
  nodes_eq : h.nodes = g.nodes ++ [⟨id, attributes⟩]
  nodeCount_eq : h.nodeCount = g.nodeCount + 1
  edges_eq : h.edges = g.edges
  adjacency_eq : h.adjacency = g.adjacency
  counter_eq : h.counter = id.value

/-- Says that a node with these attributes may be added. -/
def TakesNode (g : Graph) (attributes : Attributes) : Prop :=
  ∃ id h, g.addNode attributes = .ok h ∧ g.Grows h id attributes

theorem Sound.grows (sound : g.Sound) (added : g.addNode attributes = .ok h) :
    g.Grows h g.nextId attributes := by
  obtain ⟨room, rfl⟩ := (addNode_eq_ok_iff ..).1 added
  have nodes := g.nodeTable.values_insert_new (Node.id_mk g.nextId attributes)
    (sound.nextId_not_mem room)
  have count (h : Graph) : h.nodeCount = h.nodes.length := (List.length_map ..).symm
  refine ⟨fun n hn => ?_, ?_, nodes, ?_, rfl, rfl, rfl⟩
  · exact sound.lt_nextId room (g.map_id_nodes ▸ List.mem_map_of_mem hn)
  · rw [← Bool.not_eq_true, hasNode_iff]
    exact sound.nextId_not_mem room
  · rw [count, count]
    exact (congrArg List.length nodes).trans List.length_append

theorem Sound.takesNode_iff (sound : g.Sound) (attributes : Attributes) :
    g.TakesNode attributes ↔ g.counter ≠ lastCounter := by
  constructor
  · intro ⟨_, h, added, _⟩
    exact ((addNode_eq_ok_iff g h attributes).1 added).1
  · intro room
    have added := (addNode_eq_ok_iff g _ attributes).2 ⟨room, rfl⟩
    exact ⟨g.nextId, _, added, sound.grows added⟩

/-- A graph from parts or from a snapshot takes a new node unless its counter is used up. -/
theorem takesNode_loaded_iff (attributes : Attributes)
    (loaded : (∃ nodes edges, ofParts nodes edges counter = .ok g) ∨
      ∃ unpack bytes, Snapshot.decodeWith unpack bytes = .ok (g, counter)) :
    g.TakesNode attributes ↔ counter ≠ lastCounter := by
  obtain ⟨sound, rfl⟩ : g.Sound ∧ g.counter = counter := by
    rcases loaded with ⟨nodes, edges, built⟩ | ⟨unpack, bytes, read⟩
    · exact ⟨sound_ofParts built, counter_ofParts built⟩
    · exact Snapshot.sound_of_decode read
  exact sound.takesNode_iff attributes

/-- A repeated node and the last counter that leaves room. -/
theorem takesNode_loaded_iff_repeated :
    ∃ g, ofParts [⟨⟨3⟩, ∅⟩, ⟨⟨7⟩, ∅⟩, ⟨⟨3⟩, ∅⟩] [⟨⟨7⟩, ⟨3⟩, ∅⟩] (lastCounter - 1) = .ok g ∧
      g.TakesNode ∅ := by
  have built : ∃ g, ofParts [⟨⟨3⟩, ∅⟩, ⟨⟨7⟩, ∅⟩, ⟨⟨3⟩, ∅⟩] [⟨⟨7⟩, ⟨3⟩, ∅⟩] (lastCounter - 1) = .ok g :=
    ⟨_, rfl⟩
  obtain ⟨g, built⟩ := built
  exact ⟨g, built, (takesNode_loaded_iff ∅ (.inl ⟨_, _, built⟩)).2 (by decide)⟩

/-- With the counter at its last value there is an identity above all nodes, and yet none is given
out. -/
theorem not_takesNode_last :
    ∃ g, ofParts [⟨⟨lastCounter - 1⟩, ∅⟩] [] lastCounter = .ok g ∧
      g.addNode ∅ = .error .exhausted ∧ ¬ g.TakesNode ∅ := by
  obtain ⟨g, built⟩ : ∃ g, ofParts [⟨⟨lastCounter - 1⟩, ∅⟩] [] lastCounter = .ok g := ⟨_, rfl⟩
  have last := counter_ofParts built
  refine ⟨g, built, if_pos last, fun takes => ?_⟩
  exact ((sound_ofParts built).takesNode_iff ∅).1 takes last

end WordGraph.Graph
