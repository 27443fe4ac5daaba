import WordGraph.Proofs.Failure
import WordGraph.Proofs.Graph.Coherence

/-!
Sound graphs: coherent ones whose nodes have identities that the counter has passed, so that the
next identity is that of no node.
-/

namespace WordGraph.Graph

structure Sound (g : Graph) : Prop where
  coherent : g.Coherent
  le_counter : ∀ id ∈ g.nodeTable.keys, id.value ≤ g.counter

theorem sound_empty : (∅ : Graph).Sound := ⟨coherent_empty, fun _ h => nomatch h⟩

theorem toNat_succ {c : UInt64} (h : c ≠ lastCounter) : (c + 1).toNat = c.toNat + 1 := by
  have hc : c.toNat ≠ 2 ^ 64 - 1 := fun e => h (UInt64.toNat_inj.1 e)
  have bound := c.toNat_lt
  rw [UInt64.toNat_add, UInt64.toNat_one]
  omega

theorem addNode_eq_ok_iff (g h : Graph) (attributes : Attributes) :
    g.addNode attributes = .ok h ↔ g.counter ≠ lastCounter ∧
      h = { g with
        nodeTable := g.nodeTable.insert g.nextId ⟨g.nextId, attributes⟩ (Node.id_mk ..)
        counter := g.counter + 1 } := by
  rw [addNode]
  by_cases last : g.counter = lastCounter
  · simp [last]
  · simp [last, eq_comm]

/-- The identity of a new node is above all others. -/
theorem Sound.lt_nextId {g : Graph} (h : g.Sound) (room : g.counter ≠ lastCounter) {id : NodeId}
    (hid : id ∈ g.nodeTable.keys) : id.value < g.nextId.value := by
  have below := UInt64.le_iff_toNat_le.1 (h.le_counter id hid)
  rw [UInt64.lt_iff_toNat_lt, nextId, toNat_succ room]
  omega

theorem Sound.nextId_not_mem {g : Graph} (h : g.Sound) (room : g.counter ≠ lastCounter) :
    g.nextId ∉ g.nodeTable.keys := fun hid => UInt64.lt_irrefl _ (h.lt_nextId room hid)

theorem Sound.addNode {g h : Graph} (hg : g.Sound) {attributes : Attributes}
    (added : g.addNode attributes = .ok h) : h.Sound := by
  obtain ⟨room, rfl⟩ := (addNode_eq_ok_iff ..).1 added
  refine ⟨hg.coherent.grow _ _ fun id hid => ?_, fun id hid => ?_⟩
  · exact (OrderedMap.mem_keys_insert ..).2 (.inl hid)
  · rcases (OrderedMap.mem_keys_insert ..).1 hid with hid | rfl
    · exact UInt64.le_of_lt (hg.lt_nextId room hid)
    · exact UInt64.le_refl _

theorem Sound.addEdge {g h : Graph} (hg : g.Sound) {source target : NodeId}
    {attributes : Attributes} (added : g.addEdge source target attributes = .ok h) : h.Sound := by
  refine ⟨hg.coherent.addEdge added, ?_⟩
  obtain ⟨_, rfl⟩ := (addEdge_eq_ok_iff ..).1 added
  exact hg.le_counter

theorem Sound.modifyNode {g : Graph} (h : g.Sound) (id : NodeId) (f : Attributes → Attributes) :
    (g.modifyNode id f).Sound := by
  refine ⟨h.coherent.modifyNode id f, fun j hj => ?_⟩
  simp only [Graph.modifyNode, Catalog.toOrderedMap_modify, OrderedMap.keys_modify] at hj
  exact h.le_counter j hj

theorem Sound.modifyEdge {g : Graph} (h : g.Sound) (source target : NodeId)
    (f : Attributes → Attributes) : (g.modifyEdge source target f).Sound :=
  ⟨h.coherent.modifyEdge source target f, h.le_counter⟩

theorem Sound.removeEdge {g h : Graph} (hg : g.Sound) {source target : NodeId} {e : Edge}
    (removed : g.removeEdge source target = some (e, h)) : h.Sound := by
  refine ⟨hg.coherent.removeEdge removed, ?_⟩
  obtain ⟨_, rfl⟩ := (removeEdge_eq_some_iff ..).1 removed
  exact hg.le_counter

theorem Sound.removeNode {g h : Graph} (hg : g.Sound) {id : NodeId} {n : Node} {es : List Edge}
    (removed : g.removeNode id = some (n, es, h)) : h.Sound := by
  refine ⟨hg.coherent.removeNode removed, fun j hj => ?_⟩
  obtain ⟨_, _, rfl⟩ := (removeNode_eq_some_iff ..).1 removed
  simp only [Catalog.toOrderedMap_erase, OrderedMap.keys_erase] at hj
  exact hg.le_counter j (List.mem_of_mem_filter hj)

/-- What the restored nodes of a graph in the making have in common. -/
structure Restored (counter : UInt64) (g : Graph) : Prop where
  coherent : g.Coherent
  le_counter : ∀ id ∈ g.nodeTable.keys, id.value ≤ counter

theorem Restored.node {counter : UInt64} {g h : Graph} (hg : Restored counter g) {n : Node}
    (restored : restoreNode counter g n = .ok h) : Restored counter h := by
  rw [restoreNode] at restored
  split at restored
  · cases restored
  · rename_i fits
    cases restored
    refine ⟨hg.coherent.grow _ g.counter fun id hid => ?_, fun id hid => ?_⟩
    · exact (OrderedMap.mem_keys_insert ..).2 (.inl hid)
    · rcases (OrderedMap.mem_keys_insert ..).1 hid with hid | rfl
      · exact hg.le_counter id hid
      · exact UInt64.not_lt.1 fits

theorem Restored.edge {counter : UInt64} {g h : Graph} (hg : Restored counter g) {e : Edge}
    (added : g.addEdge e.source e.target e.attributes = .ok h) : Restored counter h := by
  refine ⟨hg.coherent.addEdge added, ?_⟩
  obtain ⟨_, rfl⟩ := (addEdge_eq_ok_iff ..).1 added
  exact hg.le_counter

theorem ofParts_eq_ok_iff (nodes : List Node) (edges : List Edge) (counter : UInt64) (g : Graph) :
    ofParts nodes edges counter = .ok g ↔
      ∃ bare full, nodes.foldlM (restoreNode counter) ∅ = .ok bare ∧
        edges.foldlM (fun g e => g.addEdge e.source e.target e.attributes) bare = .ok full ∧
        g = { full with counter } := by
  simp only [ofParts, Except.bind_eq_ok_iff]
  constructor
  · intro ⟨bare, hnodes, full, hedges, h⟩
    exact ⟨bare, full, hnodes, hedges, (Except.ok.inj h).symm⟩
  · intro ⟨bare, full, hnodes, hedges, h⟩
    exact ⟨bare, hnodes, full, hedges, congrArg Except.ok h.symm⟩

theorem counter_ofParts {nodes : List Node} {edges : List Edge} {counter : UInt64} {g : Graph}
    (h : ofParts nodes edges counter = .ok g) : g.counter = counter := by
  obtain ⟨_, _, _, _, rfl⟩ := (ofParts_eq_ok_iff ..).1 h
  rfl

theorem sound_ofParts {nodes : List Node} {edges : List Edge} {counter : UInt64} {g : Graph}
    (h : ofParts nodes edges counter = .ok g) : g.Sound := by
  obtain ⟨bare, full, hnodes, hedges, rfl⟩ := (ofParts_eq_ok_iff ..).1 h
  have start : Restored counter ∅ := ⟨coherent_empty, fun _ h => nomatch h⟩
  have withNodes : Restored counter bare :=
    Except.foldlM_invariant (fun _ _ _ hg h => hg.node h) start hnodes
  have withEdges : Restored counter full :=
    Except.foldlM_invariant (fun _ _ _ hg h => hg.edge h) withNodes hedges
  exact ⟨withEdges.coherent.grow _ counter fun _ hid => hid, withEdges.le_counter⟩

end WordGraph.Graph
