import WordGraph.Proofs.Query.Repetition

/-!
What a CREATEEDGE makes of the table of edges. Hops may put the same edge, and one that was there
before; its attributes are those of the last hop that puts it, and its place is the one in which it
came first.
-/

namespace WordGraph

theorem alternates_cons_cons_iff (a b : Role) (rest : List Role) :
    alternates (a :: b :: rest) = true ↔ a = .node ∧ b = .edge ∧ alternates rest = true := by
  cases a <;> cases b <;> simp [alternates]

theorem first_of_alternates {a : Role} {rest : List Role} (h : alternates (a :: rest) = true) :
    a = .node := by
  cases a with
  | node => rfl
  | edge | bool => cases h

/-- Says of hops that they are those of a chain of patterns: each takes three of them, the last of which
is the first of the next hop. -/
structure Hop.Cover (ps : List Pattern) (hops : List Hop) : Prop where
  length_eq : ps.length = 2 * hops.length + 1
  at_iff : ∀ i h, hops[i]? = some h ↔ ps[2 * i]? = some h.source ∧
    ps[2 * i + 1]? = some h.relation ∧ ps[2 * i + 2]? = some h.target
  roles : ∀ h ∈ hops, h.source.role = .node ∧ h.relation.role = .edge ∧ h.target.role = .node

theorem Hop.cover_ofPatterns {ps : List Pattern}
    (alternating : alternates (ps.map Pattern.role) = true) : Cover ps (ofPatterns ps) := by
  fun_induction ofPatterns ps with
  | case1 source relation target rest ih =>
      rw [List.map_cons, List.map_cons, alternates_cons_cons_iff] at alternating
      obtain ⟨first, second, others⟩ := alternating
      have cover := ih others
      refine ⟨?_, fun i h => ?_, fun h mem => ?_⟩
      · rw [List.length_cons, List.length_cons, cover.length_eq, List.length_cons]
        omega
      · cases i with
        | zero =>
            constructor
            · intro here
              cases here
              exact ⟨rfl, rfl, rfl⟩
            · intro ⟨one, two, three⟩
              cases one
              cases two
              cases three
              rfl
        | succ i => exact cover.at_iff i h
      · cases List.mem_cons.1 mem with
        | inl same =>
            subst same
            exact ⟨first, second, first_of_alternates others⟩
        | inr later => exact cover.roles h later
  | case2 ps short =>
      match ps with
      | [] => cases alternating
      | [p] => exact ⟨rfl, fun i h => ⟨nofun, fun ⟨_, missing, _⟩ => nomatch missing⟩, nofun⟩
      | [p, q] =>
          rw [List.map_cons, List.map_cons, alternates_cons_cons_iff] at alternating
          cases alternating.2.2
      | source :: relation :: target :: rest => exact absurd rfl (short source relation target rest)

namespace Graph

theorem edge?_put (g : Graph) (e : Edge) (u v : NodeId) :
    (g.put e).edge? u v = if e.endpoints = (u, v) then some ⟨u, v, e.attributes⟩ else g.edge? u v := by
  rw [edge?, put, Catalog.toOrderedMap_insert, OrderedMap.find?_insert]
  split
  · rename_i same
    obtain ⟨rfl, rfl⟩ := Prod.mk.inj same
    rfl
  · rfl

/-- Edges with the same attributes give them to the edges between their ends. -/
theorem edge?_foldl_put (g : Graph) {es : List Edge} {a : Attributes}
    (same : ∀ e ∈ es, e.attributes = a) (u v : NodeId) :
    (es.foldl put g).edge? u v =
      if (u, v) ∈ es.map Edge.endpoints then some ⟨u, v, a⟩ else g.edge? u v := by
  induction es generalizing g with
  | nil => rfl
  | cons e es ih =>
      rw [List.foldl_cons, ih _ fun f hf => same f (List.mem_cons_of_mem _ hf), edge?_put,
        same e (List.mem_cons_self ..), List.map_cons]
      by_cases later : (u, v) ∈ es.map Edge.endpoints
      · rw [if_pos later, if_pos (List.mem_cons_of_mem _ later)]
      · rw [if_neg later]
        by_cases here : e.endpoints = (u, v)
        · rw [if_pos here, if_pos (here ▸ List.mem_cons_self ..)]
        · rw [if_neg here, if_neg]
          rw [List.mem_cons, not_or]
          exact ⟨Ne.symm here, later⟩

/-- Edges that are put go behind those that were there, each where it first comes. -/
theorem endpoints_foldl_put (g : Graph) (es : List Edge) :
    (es.foldl put g).edges.map Edge.endpoints = g.edges.map Edge.endpoints ++
      ((es.map Edge.endpoints).filter (· ∉ g.edges.map Edge.endpoints)).eraseDups := by
  rw [map_endpoints_edges, map_endpoints_edges, foldl_put]
  refine (g.edgeTable.keys_putAll es).trans ?_
  congr! with e

end Graph

namespace Session

/-- Says that a hop puts an edge between two nodes, one of those at its start and one of those at its
end. -/
def Puts (s : Session) (c : Command) (h : Hop) (u v : NodeId) : Prop :=
  u ∈ (s.matched c h.source).ids ∧ v ∈ (s.matched c h.target).ids

instance (s : Session) (c : Command) (h : Hop) (u v : NodeId) : Decidable (s.Puts c h u v) :=
  inferInstanceAs (Decidable (_ ∧ _))

/-- Says of what a CREATEEDGE leaves and answers that it is made of the products of the nodes at both
ends of its hops. -/
structure Products (s : Session) (c : Command) (hops : List Hop) (t : Session) (o : Outcome) :
    Prop where
  selects : ∀ p, Keeps s.graph.nodes (s.matched c p).nodes (c.Selects p)
  nodeTable_eq : t.graph.nodeTable = s.graph.nodeTable
  counter_eq : t.graph.counter = s.graph.counter
  hasEdge_iff : ∀ u v, t.graph.hasEdge u v = true ↔
    s.graph.hasEdge u v = true ∨ ∃ h ∈ hops, s.Puts c h u v
  edge?_eq : ∀ u v, t.graph.edge? u v =
    ((hops.filter (s.Puts c · u v)).getLast?.map fun h => ⟨u, v, h.relation.attributes⟩).or
      (s.graph.edge? u v)
  endpoints_eq : t.graph.edges.map Edge.endpoints = s.graph.edges.map Edge.endpoints ++
    (((hops.flatMap (s.linked c)).map Edge.endpoints).filter
      (· ∉ s.graph.edges.map Edge.endpoints)).eraseDups
  outcome_eq : o = .edgesCreated (hops.flatMap (s.linked c))
  binding?_eq : ∀ name, t.binding? name =
    ((hops.filter (·.relation.identifier = name)).getLast?.map fun h => .edges (s.linked c h)).or
      (s.binding? name)

section Putting

variable {s : Session} {c : Command}

theorem mem_endpoints_linked_iff (h : Hop) (u v : NodeId) :
    (u, v) ∈ (s.linked c h).map Edge.endpoints ↔ s.Puts c h u v := by
  simp only [linked, List.map_flatMap, List.map_map, List.mem_flatMap, List.mem_map]
  constructor
  · intro put
    obtain ⟨a, ha, b, hb, same⟩ := put
    cases same
    exact ⟨ha, hb⟩
  · intro puts
    exact ⟨u, puts.1, v, puts.2, rfl⟩

/-- What a single hop does to an edge. -/
theorem edge?_linked (g : Graph) (h : Hop) (u v : NodeId) :
    ((s.linked c h).foldl Graph.put g).edge? u v =
      if s.Puts c h u v then some ⟨u, v, h.relation.attributes⟩ else g.edge? u v := by
  have same : ∀ e ∈ s.linked c h, e.attributes = h.relation.attributes :=
    fun e he => ((mem_linked_iff s c h e).1 he).2.2
  rw [Graph.edge?_foldl_put g same]
  simp only [mem_endpoints_linked_iff]

theorem edge?_flatMap_linked (g : Graph) (hops : List Hop) (u v : NodeId) :
    ((hops.flatMap (s.linked c)).foldl Graph.put g).edge? u v =
      ((hops.filter (s.Puts c · u v)).getLast?.map fun h => ⟨u, v, h.relation.attributes⟩).or
        (g.edge? u v) := by
  induction hops using List.reverseRecOn with
  | nil => rfl
  | append_singleton hops h ih =>
      rw [List.flatMap_append, List.flatMap_singleton, List.foldl_append, edge?_linked, ih,
        List.filter_append]
      by_cases puts : s.Puts c h u v
      · simp [puts]
      · simp [puts]

theorem binding?_foldl_edges (b : Bindings) (hops : List Hop) (name : String) :
    (hops.foldl (fun b h => b.insert h.relation.identifier (.edges (s.linked c h))) b).find? name =
      ((hops.filter (·.relation.identifier = name)).getLast?.map fun h => .edges (s.linked c h)).or
        (b.find? name) := by
  have pairs := b.find?_foldl_insert
    (hops.map fun h => (h.relation.identifier, Binding.edges (s.linked c h))) name
  rw [List.foldl_map, List.filter_map, List.getLast?_map, Option.map_map] at pairs
  exact pairs

theorem createEdges_products (coherent : s.graph.Coherent) (c : Command) :
    s.Products c (Hop.ofPatterns c.patterns) (s.createEdges c c.patterns).1
      (.edgesCreated (s.createEdges c c.patterns).2.1) := by
  obtain ⟨nodes, put, bound⟩ := createEdges_spec s c c.patterns
  have graph := createEdges_graph s c c.patterns
  have edges (u v : NodeId) := edge?_flatMap_linked (s := s) (c := c) s.graph
    (Hop.ofPatterns c.patterns) u v
  rw [← graph] at edges
  exact {
    selects := matched_keeps s c
    nodeTable_eq := nodes
    counter_eq := by rw [graph, Graph.foldl_put]
    hasEdge_iff u v := by
      have ends : ∀ e ∈ (Hop.ofPatterns c.patterns).flatMap (s.linked c), s.graph.HasEnds e := by
        intro e he
        obtain ⟨h, _, put⟩ := List.mem_flatMap.1 he
        exact ends_linked put
      have coherent' : (s.createEdges c c.patterns).1.graph.Coherent :=
        graph ▸ coherent.foldl_put ends
      rw [coherent'.hasEdge_eq, coherent.hasEdge_eq, edges, Option.isSome_or, Bool.or_eq_true,
        or_comm, Option.isSome_map]
      refine or_congr_right ?_
      rw [Option.isSome_iff_ne_none, ne_eq, List.getLast?_eq_none_iff, List.filter_eq_nil_iff]
      simp only [decide_eq_true_eq, not_forall, not_not, exists_prop]
    edge?_eq := edges
    endpoints_eq := by rw [graph, Graph.endpoints_foldl_put]
    outcome_eq := by rw [put]
    binding?_eq name := by
      rw [binding?, bound]
      exact binding?_foldl_edges s.bindings _ name }

end Putting

/-- A CREATEEDGE that passes its check has at least one hop. It leaves the nodes and the counter as they
were and puts the product of each hop; what it answers and binds is known from the session before it,
though every hop selects anew in the graph that the hops before it have made. -/
theorem runCommand_products {s : Session} (reached : s.Reachable) {c : Command}
    (accepted : c.check = .ok ()) (keyword : c.keyword = .createEdge) :
    ∃ hops o, hops ≠ [] ∧ Hop.Cover c.patterns hops ∧ (s.runCommand c).2.result = .ok o ∧
      s.Products c hops (s.runCommand c).1 o := by
  have shaped := ((Command.check_eq_ok_iff c).1 accepted).1
  simp only [Command.Shaped, keyword] at shaped
  obtain ⟨several, alternating⟩ := shaped
  have cover := Hop.cover_ofPatterns alternating
  have done := dispatch_of_carries (.createEdge (s := s) keyword)
  rw [runCommand_of_check accepted done]
  refine ⟨_, _, fun none => ?_, cover, rfl, createEdges_products reached.sound.coherent c⟩
  have length := cover.length_eq
  rw [none, ← length_roles] at length
  rw [length] at several
  exact absurd several (by decide)

/-- Two hops of one name around a node that both put an edge that was there, and each a loop. -/
theorem runCommand_products_overlapping :
    ∃ (s : Session) (c : Command) (hops : List Hop) (o : Outcome), s.Reachable ∧
      Statement.parse (splitWords
        "CREATEEDGE n: a id<2 e: r w:1 n: b e: r w:2 n: c id>1 ;") = [.ok [c]] ∧
      s.Products c hops (s.runCommand c).1 o ∧
      ((s.runCommand c).1.graph.edges.map fun e =>
          (e.source.toNat, e.target.toNat, e.attributes.toList)) =
        [(1, 2, [("w", "2")]), (1, 1, [("w", "1")]), (2, 2, [("w", "2")])] := by
  let weight (value : String) (usable : admissible value = true) : Attributes :=
    .put ∅ "w" value (by decide) usable
  let c : Command := { keyword := .createEdge
                       patterns := [⟨.node, "a", ∅⟩, ⟨.edge, "r", weight "1" (by decide)⟩,
                         ⟨.node, "b", ∅⟩, ⟨.edge, "r", weight "2" (by decide)⟩, ⟨.node, "c", ∅⟩]
                       predicates := [.predicate ⟨"id", .less, "2", "a"⟩,
                         .predicate ⟨"id", .greater, "1", "c"⟩] }
  have reached : (Session.feed ∅ (.edges [.fields ["1", "2"]])).Reachable := .fed .empty _
  obtain ⟨hops, o, _, _, _, products⟩ := runCommand_products reached (c := c) rfl rfl
  exact ⟨_, c, hops, o, reached, by decide +kernel, products, by decide +kernel⟩

end Session
end WordGraph
