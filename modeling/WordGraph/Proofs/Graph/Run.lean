import WordGraph.Proofs.Graph.Soundness

/-!
Runs of operations on a graph. An operation that reports failure leaves the graph as it is. Every
run from the empty graph, or from one that was put together from lists of nodes and edges, ends in a
sound graph; the main statement spells out what that says of its tables, its adjacency and its
attributes.
-/

namespace WordGraph.Graph

/-- A change asked of a graph. An edit gives the new attributes of an entity or refuses. -/
inductive Operation where
  | addNode (attributes : Attributes)
  | removeNode (id : NodeId)
  | addEdge (source target : NodeId) (attributes : Attributes)
  | removeEdge (source target : NodeId)
  | editNode (id : NodeId) (edit : Attributes → Except AttributeFault Attributes)
  | editEdge (source target : NodeId) (edit : Attributes → Except AttributeFault Attributes)
  | clear

/-- The graph behind an operation, or nothing if the operation reports failure. -/
def perform (g : Graph) : Operation → Option Graph
  | .addNode attributes => (g.addNode attributes).toOption
  | .removeNode id => (g.removeNode id).map fun r => r.2.2
  | .addEdge source target attributes => (g.addEdge source target attributes).toOption
  | .removeEdge source target => (g.removeEdge source target).map Prod.snd
  | .editNode id edit => do
      let n ← g.node? id
      let attributes ← (edit n.attributes).toOption
      return g.modifyNode id fun _ => attributes
  | .editEdge source target edit => do
      let e ← g.edge? source target
      let attributes ← (edit e.attributes).toOption
      return g.modifyEdge source target fun _ => attributes
  | .clear => some ∅

def step (g : Graph) (o : Operation) : Graph := (g.perform o).getD g

def run (g : Graph) (os : List Operation) : Graph := os.foldl step g

/-- When an operation has to report failure. -/
def Refuses (g : Graph) : Operation → Prop
  | .addNode _ => g.counter = lastCounter
  | .removeNode id => g.node? id = none
  | .addEdge source target _ => g.node? source = none ∨ g.node? target = none
  | .removeEdge source target => g.edge? source target = none
  | .editNode id edit => ∀ n, g.node? id = some n → (edit n.attributes).toOption = none
  | .editEdge source target edit =>
      ∀ e, g.edge? source target = some e → (edit e.attributes).toOption = none
  | .clear => False

theorem node?_eq_none_iff (g : Graph) (id : NodeId) :
    g.node? id = none ↔ id ∉ g.nodeTable.keys := by
  rw [node?, OrderedMap.find?_eq_none_iff]

theorem toOption_eq_none_iff {ε α : Type} (x : Except ε α) :
    x.toOption = none ↔ ∀ a, x ≠ .ok a := by
  cases x <;> simp [Except.toOption]

theorem toOption_eq_some_iff {ε α : Type} (x : Except ε α) (a : α) :
    x.toOption = some a ↔ x = .ok a := by
  cases x <;> simp [Except.toOption]

theorem perform_eq_none_iff (g : Graph) (o : Operation) : g.perform o = none ↔ g.Refuses o := by
  cases o with
  | addNode attributes =>
      simp only [perform, Refuses, toOption_eq_none_iff, ne_eq, addNode_eq_ok_iff, not_and]
      constructor
      · intro h
        by_contra room
        exact h _ room rfl
      · intro last h room
        exact absurd last room
  | removeNode id => simp [perform, Refuses, removeNode]
  | addEdge source target attributes =>
      simp only [perform, Refuses, toOption_eq_none_iff, ne_eq, addEdge_eq_ok_iff,
        node?_eq_none_iff, not_and]
      constructor
      · intro h
        by_contra both
        rw [not_or, Decidable.not_not, Decidable.not_not] at both
        exact h _ both rfl
      · intro missing h both
        exact absurd both (by tauto)
  | removeEdge source target => simp [perform, Refuses, removeEdge]
  | editNode id edit =>
      cases hn : g.node? id with
      | none => simp [perform, Refuses, hn]
      | some n => cases ha : (edit n.attributes).toOption <;> simp [perform, Refuses, hn, ha]
  | editEdge source target edit =>
      cases he : g.edge? source target with
      | none => simp [perform, Refuses, he]
      | some e => cases ha : (edit e.attributes).toOption <;> simp [perform, Refuses, he, ha]
  | clear => simp [perform, Refuses]

theorem Sound.perform {g h : Graph} (hg : g.Sound) {o : Operation}
    (done : g.perform o = some h) : h.Sound := by
  cases o with
  | addNode attributes => exact hg.addNode ((toOption_eq_some_iff ..).1 done)
  | removeNode id =>
      obtain ⟨⟨n, es, rest⟩, removed, rfl⟩ := Option.map_eq_some_iff.1 done
      exact hg.removeNode removed
  | addEdge source target attributes => exact hg.addEdge ((toOption_eq_some_iff ..).1 done)
  | removeEdge source target =>
      obtain ⟨⟨e, rest⟩, removed, rfl⟩ := Option.map_eq_some_iff.1 done
      exact hg.removeEdge removed
  | editNode id edit =>
      simp only [Graph.perform, Option.bind_eq_bind, Option.bind_eq_some_iff] at done
      obtain ⟨n, _, attributes, _, h⟩ := done
      exact Option.some.inj h ▸ hg.modifyNode id _
  | editEdge source target edit =>
      simp only [Graph.perform, Option.bind_eq_bind, Option.bind_eq_some_iff] at done
      obtain ⟨e, _, attributes, _, h⟩ := done
      exact Option.some.inj h ▸ hg.modifyEdge source target _
  | clear => exact Option.some.inj done ▸ sound_empty

theorem Sound.step {g : Graph} (hg : g.Sound) (o : Operation) : (g.step o).Sound := by
  rw [Graph.step]
  cases done : g.perform o with
  | none => exact hg
  | some h => exact hg.perform done

theorem Sound.run {g : Graph} (hg : g.Sound) (os : List Operation) : (g.run os).Sound := by
  induction os generalizing g with
  | nil => exact hg
  | cons o os ih => exact ih (hg.step o)

/-- The graphs that operations make of the empty one or of one that is put together from its parts. -/
inductive Reached : Graph → Prop where
  | empty : Reached ∅
  | parts {nodes : List Node} {edges : List Edge} {counter : UInt64} {g : Graph}
      (built : ofParts nodes edges counter = .ok g) : Reached g
  | step {g : Graph} (reached : Reached g) (o : Operation) : Reached (g.step o)

theorem Reached.sound {g : Graph} (h : g.Reached) : g.Sound := by
  induction h with
  | empty => exact sound_empty
  | parts built => exact sound_ofParts built
  | step _ o ih => exact ih.step o

theorem node?_eq_some_iff (g : Graph) (id : NodeId) (n : Node) :
    g.node? id = some n ↔ n ∈ g.nodes ∧ n.id = id := g.nodeTable.find?_eq_some_iff_value id n

theorem edge?_eq_some_iff (g : Graph) (source target : NodeId) (e : Edge) :
    g.edge? source target = some e ↔ e ∈ g.edges ∧ e.endpoints = (source, target) :=
  g.edgeTable.find?_eq_some_iff_value (source, target) e

theorem edge?_isSome_iff (g : Graph) (source target : NodeId) :
    (g.edge? source target).isSome = true ↔ (source, target) ∈ g.edgeTable.keys := by
  rw [edge?, Option.isSome_iff_exists, ← OrderedMap.mem_keys_iff]

theorem Coherent.hasEdge_eq {g : Graph} (h : g.Coherent) (source target : NodeId) :
    g.hasEdge source target = (g.edge? source target).isSome := by
  rw [Bool.eq_iff_iff, edge?_isSome_iff]
  exact h.lists.linked_iff source target

/-- Says that a text can stand in a query as a key or a value. -/
def Usable (s : String) : Prop :=
  s ≠ "" ∧ ∀ c ∈ s.toList, Text.isBlank c = false ∧ c ∉ [':', ';', '<', '>', '=']

theorem usable_of_admissible {s : String} (h : admissible s = true) : Usable s := by
  simp only [admissible, Bool.and_eq_true, List.all_eq_true, Bool.not_eq_true'] at h
  obtain ⟨nonempty, plain⟩ := h
  refine ⟨fun e => ?_, fun c hc => ?_⟩
  · subst e
    cases nonempty
  · obtain ⟨blank, reserved⟩ := plain c hc
    simp only [isReserved, Bool.or_eq_false_iff, decide_eq_false_iff_not] at reserved
    simp only [List.mem_cons, List.not_mem_nil, or_false]
    exact ⟨blank, by tauto⟩

/-- What every graph keeps: its tables, its adjacency and its attributes fit together, and an
operation that fails does so for a reason and changes nothing. -/
structure WellKept (g : Graph) : Prop where
  source_stored : ∀ e ∈ g.edges, g.hasNode e.source = true
  target_stored : ∀ e ∈ g.edges, g.hasNode e.target = true
  node_keyed : ∀ e ∈ g.nodeTable.entries, e.2.id = e.1
  edge_keyed : ∀ e ∈ g.edgeTable.entries, e.2.endpoints = e.1
  ids_nodup : (g.nodes.map Node.id).Nodup
  endpoints_nodup : (g.edges.map Edge.endpoints).Nodup
  node?_iff : ∀ id n, g.node? id = some n ↔ n ∈ g.nodes ∧ n.id = id
  edge?_iff : ∀ source target e,
    g.edge? source target = some e ↔ e ∈ g.edges ∧ e.endpoints = (source, target)
  neighbors_eq : ∀ id, g.neighbors id = (g.edges.filter (·.source = id)).map Edge.target
  predecessors_eq : ∀ id, g.predecessors id = (g.edges.filter (·.target = id)).map Edge.source
  hasEdge_eq : ∀ source target, g.hasEdge source target = (g.edge? source target).isSome
  outDegree_eq : ∀ id, g.adjacency.outDegree id = g.edges.countP (·.source = id)
  inDegree_eq : ∀ id, g.adjacency.inDegree id = g.edges.countP (·.target = id)
  usable : ∀ a ∈ g.nodes.map Node.attributes ++ g.edges.map Edge.attributes,
    ∀ e ∈ a.toList, Usable e.1 ∧ Usable e.2
  refuses_iff : ∀ o, g.perform o = none ↔ g.Refuses o
  step_of_refuses : ∀ o, g.Refuses o → g.step o = g

theorem Coherent.wellKept {g : Graph} (h : g.Coherent) : g.WellKept where
  source_stored e he := (hasNode_iff ..).2 (h.source_mem e he)
  target_stored e he := (hasNode_iff ..).2 (h.target_mem e he)
  node_keyed := g.nodeTable.keyed
  edge_keyed := g.edgeTable.keyed
  ids_nodup := by
    rw [map_id_nodes]
    exact g.nodeTable.keys_nodup
  endpoints_nodup := by
    rw [map_endpoints_edges]
    exact g.edgeTable.keys_nodup
  node?_iff := g.node?_eq_some_iff
  edge?_iff := g.edge?_eq_some_iff
  neighbors_eq := h.neighbors_eq
  predecessors_eq := h.predecessors_eq
  hasEdge_eq := h.hasEdge_eq
  outDegree_eq id := by
    rw [List.countP_eq_length_filter, ← List.length_map (f := Edge.target), ← h.neighbors_eq]
    rfl
  inDegree_eq id := by
    rw [List.countP_eq_length_filter, ← List.length_map (f := Edge.source), ← h.predecessors_eq]
    rfl
  usable a _ e he :=
    ⟨usable_of_admissible (a.admissible_entries e he).1,
      usable_of_admissible (a.admissible_entries e he).2⟩
  refuses_iff := g.perform_eq_none_iff
  step_of_refuses o refused := by rw [step, (g.perform_eq_none_iff o).2 refused, Option.getD_none]

/-- Every run from the empty graph, or from a graph put together from its parts, keeps all of it. -/
theorem wellKept_run {start : Graph}
    (h : start = ∅ ∨ ∃ nodes edges counter, ofParts nodes edges counter = .ok start)
    (os : List Operation) : (start.run os).WellKept := by
  have sound : start.Sound := by
    rcases h with rfl | ⟨nodes, edges, counter, h⟩
    · exact sound_empty
    · exact sound_ofParts h
  exact (sound.run os).coherent.wellKept

/-- Parts with a repeated node and a repeated loop, and operations on links in both directions. -/
theorem wellKept_run_repeated :
    ∃ start,
      ofParts [⟨⟨1⟩, ∅⟩, ⟨⟨1⟩, ∅⟩] [⟨⟨1⟩, ⟨1⟩, ∅⟩, ⟨⟨1⟩, ⟨1⟩, ∅⟩] 4 = .ok start ∧
      (start.run [.addNode ∅, .addEdge ⟨1⟩ ⟨5⟩ ∅, .addEdge ⟨5⟩ ⟨1⟩ ∅, .removeNode ⟨1⟩]).WellKept := by
  obtain ⟨start, h⟩ : ∃ start,
      ofParts [⟨⟨1⟩, ∅⟩, ⟨⟨1⟩, ∅⟩] [⟨⟨1⟩, ⟨1⟩, ∅⟩, ⟨⟨1⟩, ⟨1⟩, ∅⟩] 4 = .ok start := ⟨_, rfl⟩
  exact ⟨start, h, wellKept_run (.inr ⟨_, _, _, h⟩) _⟩

end WordGraph.Graph
