import Mathlib.Data.List.Chain
import WordGraph.Proofs.Graph.Chain

/-!
The walks that a chain describes, as they are enumerated and as they are judged one by one. The
enumeration takes the edges of the hops in the order in which the selection lists them.
-/

namespace WordGraph

/-- The nodes that a row of edges passes. -/
def Edge.trace : List Edge → List NodeId
  | [] => []
  | e :: es => e.source :: (e :: es).map Edge.target

/-- Says that every position takes a node that it may take; positions beyond the end are free. -/
def Allowed.admitAll (allowed : List Allowed) (ids : List NodeId) : Bool :=
  (ids.zip allowed).all fun p => p.2.admits p.1

/-- The first and the last node of a walk. -/
def Fragment.ofWalk? (walk : List NodeId) : Option Fragment :=
  walk.head?.bind fun first => walk.getLast?.map fun last => (first, last)

namespace Graph

/-- The edges that each hop may take, without regard to the allowed nodes. -/
def hopEdges (g : Graph) : List Attributes → List Attributes → List (List Edge)
  | n :: m :: nodes, e :: edges =>
      g.edgesBetween (some n) (some m) (some e) :: g.hopEdges (m :: nodes) edges
  | _, _ => []

/-- The choices of an edge from every hop that hang together and pass allowed nodes. -/
def walkEdges (g : Graph) (nodes edges : List Attributes) (allowed : List Allowed) :
    List (List Edge) :=
  (choices (g.hopEdges nodes edges)).filter fun es =>
    es.IsChain (·.target = ·.source) && Allowed.admitAll allowed (Edge.trace es)

/-- The walks of a chain in the order of nested loops over the edges of its hops. -/
def walks (g : Graph) (nodes edges : List Attributes) (allowed : List Allowed) :
    List (List NodeId) :=
  (g.walkEdges nodes edges allowed).map Edge.trace

/-- Says of a row of nodes that it is a walk whose nodes and edges have the attributes asked for at
their places, and whose nodes are allowed there. -/
structure IsWalk (g : Graph) (nodes edges : List Attributes) (allowed : List Allowed)
    (walk : List NodeId) : Prop where
  length_eq : walk.length = nodes.length
  node_has : ∀ (i : Nat) n v, nodes[i]? = some n → walk[i]? = some v → g.nodeHas n v = true
  node_allowed : ∀ (i : Nat) ids v, allowed[i]? = some (some ids) → walk[i]? = some v → v ∈ ids
  edge_has : ∀ (i : Nat) r u v, edges[i]? = some r → walk[i]? = some u → walk[i + 1]? = some v →
    ∃ e, g.edge? u v = some e ∧ e.attributes.includes r = true

end Graph

theorem Edge.trace_cons_cons {e f : Edge} (meets : e.target = f.source) (es : List Edge) :
    Edge.trace (e :: f :: es) = e.source :: Edge.trace (f :: es) := by
  simp [trace, meets]

namespace Allowed

def first (allowed : List Allowed) : Allowed := allowed.head?.join

theorem first_admits_iff (allowed : List Allowed) (v : NodeId) :
    (first allowed).admits v = true ↔ ∀ ids, allowed[0]? = some (some ids) → v ∈ ids := by
  match allowed with
  | [] => simp [first, admits]
  | none :: _ => simp [first, admits]
  | some ids :: _ => simp [first, admits]

theorem admitAll_cons (allowed : List Allowed) (v : NodeId) (vs : List NodeId) :
    admitAll allowed (v :: vs) = ((first allowed).admits v && admitAll allowed.tail vs) := by
  cases allowed with
  | nil => simp [admitAll, first, admits]
  | cons a allowed => simp [admitAll, first]

@[simp] theorem admitAll_nil (allowed : List Allowed) : admitAll allowed [] = true := by
  simp [admitAll]

/-- Says that every edge has allowed ends, its target standing one position behind its source. -/
def admitHops : List Allowed → List Edge → Bool
  | _, [] => true
  | allowed, e :: es =>
      (first allowed).admits e.source && (first allowed.tail).admits e.target &&
        admitHops allowed.tail es

/-- Along a walk the ends of the edges are its nodes, all but the outer ones looked at twice. -/
theorem admitHops_eq {es : List Edge} (h : es.IsChain (·.target = ·.source))
    (allowed : List Allowed) : admitHops allowed es = admitAll allowed (Edge.trace es) := by
  induction es generalizing allowed with
  | nil => simp [admitHops, Edge.trace]
  | cons e es ih =>
      cases es with
      | nil => simp [admitHops, Edge.trace, admitAll_cons]
      | cons f es =>
          obtain ⟨meets, rest⟩ := List.isChain_cons_cons.1 h
          rw [admitHops, ih rest, Edge.trace_cons_cons meets, admitAll_cons, Bool.and_assoc]
          congr 1
          rw [Edge.trace, admitAll_cons, meets]
          cases (first allowed.tail).admits f.source <;> rfl

end Allowed

theorem Fragment.span?_endpoints (es : List Edge) :
    Fragment.span? (es.map Edge.endpoints) =
      if es.IsChain (·.target = ·.source) then Fragment.ofWalk? (Edge.trace es) else none := by
  have meets : (es.map Edge.endpoints).IsChain (·.2 = ·.1) ↔ es.IsChain (·.target = ·.source) := by
    rw [List.isChain_map]
    rfl
  rw [span?]
  simp only [meets]
  split
  · cases es with
    | nil => rfl
    | cons e es =>
        simp only [ofWalk?, Edge.trace, List.head?_cons, List.map_cons, List.getLast?_cons_cons]
        rw [← List.map_cons (f := Edge.endpoints), ← List.map_cons (f := Edge.target),
          List.getLast?_map, List.getLast?_map]
        simp [Edge.endpoints, Function.comp_def]
  · rfl

theorem Fragment.ofWalk?_eq_some_iff (walk : List NodeId) (first last : NodeId) :
    Fragment.ofWalk? walk = some (first, last) ↔ walk.head? = some first ∧ walk.getLast? = some last := by
  simp only [ofWalk?, Option.bind_eq_some_iff, Option.map_eq_some_iff]
  constructor
  · intro ⟨_, starts, _, ends, same⟩
    obtain ⟨rfl, rfl⟩ := Prod.mk.inj same
    exact ⟨starts, ends⟩
  · intro ⟨starts, ends⟩
    exact ⟨first, starts, last, ends, rfl⟩

theorem Fragment.ofWalk?_starts {walk : List NodeId} {first last : NodeId}
    (h : Fragment.ofWalk? walk = some (first, last)) : ∃ tail, walk = first :: tail :=
  List.head?_eq_some_iff.1 ((ofWalk?_eq_some_iff ..).1 h).1

theorem Fragment.ofWalk?_cons_cons (u v : NodeId) (walk : List NodeId) (first last : NodeId) :
    Fragment.ofWalk? (u :: v :: walk) = some (first, last) ↔
      u = first ∧ Fragment.ofWalk? (v :: walk) = some (v, last) := by
  simp [ofWalk?_eq_some_iff, List.getLast?_cons_cons]

namespace Graph

/-- A filter on the first list and one on the choices from the others make a filter on choices. -/
theorem choices_filter_map {α β : Type} (f : α → β) (p : α → Bool) (q : List α → Bool)
    (r : List α → Bool) (hr : ∀ x c, r (x :: c) = (p x && q c)) (xs : List α)
    (others : List (List α)) (images : List (List β))
    (h : choices images = ((choices others).filter q).map (·.map f)) :
    choices ((xs.filter p).map f :: images) = ((choices (xs :: others)).filter r).map (·.map f) := by
  have row (x : α) : ((choices others).map (x :: ·)).filter r =
      if p x then ((choices others).filter q).map (x :: ·) else [] := by
    cases hp : p x <;> simp [List.filter_map, Function.comp_def, hr, hp]
  simp only [choices, h, List.flatMap_map, List.filter_flatMap, List.map_flatMap, row, List.map_map]
  induction xs with
  | nil => rfl
  | cons x xs ih => cases hp : p x <;> simp [hp, ih]

theorem choices_hops (g : Graph) (nodes edges : List Attributes) (allowed : List Allowed) :
    choices (g.hops nodes edges allowed) =
      ((choices (g.hopEdges nodes edges)).filter (Allowed.admitHops allowed)).map
        (·.map Edge.endpoints) := by
  match nodes, edges with
  | [], _ => rfl
  | [_], _ => rfl
  | _ :: _ :: _, [] => rfl
  | n :: m :: nodes, r :: edges =>
      rw [hops, hopEdges, List.filter_map]
      exact choices_filter_map Edge.endpoints _ (Allowed.admitHops allowed.tail) _
        (fun e es => rfl) _ _ _ (choices_hops g (m :: nodes) edges allowed.tail)

theorem joinAll_hops (g : Graph) (nodes edges : List Attributes) (allowed : List Allowed) :
    Fragment.joinAll (g.hops nodes edges allowed) =
      ((g.walks nodes edges allowed).filterMap Fragment.ofWalk?).eraseDups := by
  rw [Fragment.joinAll_eq, choices_hops, walks, walkEdges, List.filterMap_map, List.filterMap_map,
    List.filterMap_filter, List.filterMap_filter]
  congr 1
  refine List.filterMap_congr fun es _ => ?_
  rw [Function.comp_apply, Fragment.span?_endpoints]
  by_cases h : es.IsChain (·.target = ·.source)
  · simp [h, Allowed.admitHops_eq h]
  · simp [h]

theorem isWalk_single_iff (g : Graph) (n : Attributes) (allowed : List Allowed) (v : NodeId) :
    g.IsWalk [n] [] allowed [v] ↔
      g.nodeHas n v = true ∧ (Allowed.first allowed).admits v = true := by
  rw [Allowed.first_admits_iff]
  constructor
  · intro h
    exact ⟨h.node_has 0 n v rfl rfl, fun ids hids => h.node_allowed 0 ids v hids rfl⟩
  · intro ⟨has, admitted⟩
    refine ⟨rfl, fun i n' v' hn hv => ?_, fun i ids v' ha hv => ?_, fun i r u v hr => nomatch hr⟩
    · cases i with
      | zero => cases hn; cases hv; exact has
      | succ i => cases hv
    · cases i with
      | zero => cases hv; exact admitted ids ha
      | succ i => cases hv

theorem isWalk_cons_cons_iff (g : Graph) (n r : Attributes) (nodes edges : List Attributes)
    (allowed : List Allowed) (u v : NodeId) (walk : List NodeId) :
    g.IsWalk (n :: nodes) (r :: edges) allowed (u :: v :: walk) ↔
      (g.nodeHas n u = true ∧ (Allowed.first allowed).admits u = true) ∧
        (∃ e, g.edge? u v = some e ∧ e.attributes.includes r = true) ∧
        g.IsWalk nodes edges allowed.tail (v :: walk) := by
  rw [Allowed.first_admits_iff]
  have later (i : Nat) : allowed.tail[i]? = allowed[i + 1]? := by cases allowed <;> simp
  constructor
  · intro h
    refine ⟨⟨h.node_has 0 n u rfl rfl, fun ids hids => h.node_allowed 0 ids u hids rfl⟩,
      h.edge_has 0 r u v rfl rfl rfl, Nat.succ.inj h.length_eq, fun i n' v' hn hv => ?_,
      fun i ids v' ha hv => ?_, fun i r' u' v' hr hu hv => ?_⟩
    · exact h.node_has (i + 1) n' v' hn hv
    · exact h.node_allowed (i + 1) ids v' (later i ▸ ha) hv
    · exact h.edge_has (i + 1) r' u' v' hr hu hv
  · intro ⟨⟨has, admitted⟩, linked, h⟩
    refine ⟨congrArg (· + 1) h.length_eq, fun i n' v' hn hv => ?_, fun i ids v' ha hv => ?_,
      fun i r' u' v' hr hu hv => ?_⟩
    · cases i with
      | zero => cases hn; cases hv; exact has
      | succ i => exact h.node_has i n' v' hn hv
    · cases i with
      | zero => cases hv; exact admitted ids ha
      | succ i => exact h.node_allowed i ids v' (later i ▸ ha) hv
    · cases i with
      | zero => cases hr; cases hu; cases hv; exact linked
      | succ i => exact h.edge_has i r' u' v' hr hu hv

theorem mem_walkEdges_iff (g : Graph) (nodes edges : List Attributes) (allowed : List Allowed)
    (es : List Edge) :
    es ∈ g.walkEdges nodes edges allowed ↔
      List.Forall₂ (· ∈ ·) es (g.hopEdges nodes edges) ∧
        es.IsChain (·.target = ·.source) ∧ Allowed.admitAll allowed (Edge.trace es) = true := by
  simp only [walkEdges, List.mem_filter, mem_choices, Bool.and_eq_true, decide_eq_true_eq]

theorem Coherent.mem_walks_single_iff {g : Graph} (h : g.Coherent) (n m r : Attributes)
    (allowed : List Allowed) (walk : List NodeId) :
    walk ∈ g.walks [n, m] [r] allowed ↔ g.IsWalk [n, m] [r] allowed walk := by
  have edge_iff (e : Edge) := h.mem_edgesBetween (some n) (some m) (some r) e
  simp only [Option.all_some] at edge_iff
  simp only [walks, List.mem_map, mem_walkEdges_iff, hopEdges, List.forall₂_cons_right_iff,
    List.forall₂_nil_right_iff]
  constructor
  · intro ⟨es, chosen, passed⟩
    subst passed
    obtain ⟨⟨e, _, he, rfl, rfl⟩, _, admitted⟩ := chosen
    obtain ⟨stored, hasSource, hasTarget, related⟩ := (edge_iff e).1 he
    rw [Edge.trace, List.map_cons, List.map_nil, isWalk_cons_cons_iff, isWalk_single_iff]
    simp only [Edge.trace, List.map_cons, List.map_nil, Allowed.admitAll_cons, Allowed.admitAll_nil,
      Bool.and_true, Bool.and_eq_true] at admitted
    exact ⟨⟨hasSource, admitted.1⟩, ⟨e, edge?_of_mem stored, related⟩, hasTarget, admitted.2⟩
  · intro hw
    obtain ⟨u, v, rfl⟩ := List.length_eq_two.1 hw.length_eq
    rw [isWalk_cons_cons_iff, isWalk_single_iff] at hw
    obtain ⟨⟨hasSource, fits⟩, ⟨e, found, related⟩, hasTarget, fits'⟩ := hw
    obtain ⟨stored, ends⟩ := (edge?_eq_some_iff ..).1 found
    obtain ⟨rfl, rfl⟩ := Prod.mk.inj ends
    refine ⟨[e], ⟨⟨e, [], (edge_iff e).2 ⟨stored, hasSource, hasTarget, related⟩, rfl, rfl⟩,
      .singleton e, ?_⟩, rfl⟩
    simp [Edge.trace, Allowed.admitAll_cons, fits, fits']

theorem Coherent.mem_walks_cons_iff {g : Graph} (h : g.Coherent) (n m m' r r' : Attributes)
    (nodes edges : List Attributes) (allowed : List Allowed) (walk : List NodeId) :
    walk ∈ g.walks (n :: m :: m' :: nodes) (r :: r' :: edges) allowed ↔
      ∃ u v rest, walk = u :: v :: rest ∧
        (g.nodeHas n u = true ∧ (Allowed.first allowed).admits u = true) ∧
        (∃ e, g.edge? u v = some e ∧ e.attributes.includes r = true) ∧
        v :: rest ∈ g.walks (m :: m' :: nodes) (r' :: edges) allowed.tail := by
  have edge_iff (e : Edge) := h.mem_edgesBetween (some n) (some m) (some r) e
  simp only [Option.all_some] at edge_iff
  simp only [walks, List.mem_map, mem_walkEdges_iff, hopEdges, List.forall₂_cons_right_iff]
  constructor
  · intro ⟨es, chosen, passed⟩
    subst passed
    obtain ⟨⟨e, _, he, ⟨f, fs, hf, hfs, rfl⟩, rfl⟩, chain, admitted⟩ := chosen
    obtain ⟨meets, chain⟩ := List.isChain_cons_cons.1 chain
    rw [Edge.trace_cons_cons meets, Allowed.admitAll_cons, Bool.and_eq_true] at admitted
    obtain ⟨stored, hasSource, _, related⟩ := (edge_iff e).1 he
    refine ⟨e.source, e.target, (f :: fs).map Edge.target, rfl, ⟨hasSource, admitted.1⟩,
      ⟨e, edge?_of_mem stored, related⟩, f :: fs, ⟨⟨f, fs, hf, hfs, rfl⟩, chain, admitted.2⟩, ?_⟩
    rw [Edge.trace, meets]
  · intro ⟨u, v, rest, shape, ⟨hasSource, fits⟩, ⟨e, found, related⟩, _, later, htrace⟩
    subst shape
    obtain ⟨⟨f, fs, hf, hfs, rfl⟩, chain, admitted⟩ := later
    obtain ⟨stored, ends⟩ := (edge?_eq_some_iff ..).1 found
    obtain ⟨rfl, rfl⟩ := Prod.mk.inj ends
    have meets : e.target = f.source := (List.cons.inj htrace).1.symm
    -- The middle node passes the filter of the next hop, whose source it is.
    have hasTarget : g.nodeHas m e.target = true := by
      rw [meets]
      exact ((h.mem_edgesBetween (some m) (some m') (some r') f).1 hf).2.1
    refine ⟨e :: f :: fs, ⟨⟨e, f :: fs, (edge_iff e).2 ⟨stored, hasSource, hasTarget, related⟩,
      ⟨f, fs, hf, hfs, rfl⟩, rfl⟩, List.isChain_cons_cons.2 ⟨meets, chain⟩, ?_⟩, ?_⟩
    · rw [Edge.trace_cons_cons meets, Allowed.admitAll_cons, fits, admitted, Bool.and_true]
    · rw [Edge.trace_cons_cons meets, htrace]

/-- The enumeration finds exactly the rows of nodes that are walks. -/
theorem Coherent.mem_walks_iff {g : Graph} (h : g.Coherent) (nodes edges : List Attributes)
    (shape : nodes.length = edges.length + 1) (some_edge : edges ≠ []) (allowed : List Allowed)
    (walk : List NodeId) :
    walk ∈ g.walks nodes edges allowed ↔ g.IsWalk nodes edges allowed walk := by
  match nodes, edges with
  | _, [] => exact absurd rfl some_edge
  | [n, m], [r] => exact h.mem_walks_single_iff n m r allowed walk
  | n :: m :: m' :: nodes, r :: r' :: edges =>
      have ih := h.mem_walks_iff (m :: m' :: nodes) (r' :: edges) (Nat.succ.inj shape)
        (List.cons_ne_nil r' edges) allowed.tail
      rw [h.mem_walks_cons_iff]
      constructor
      · intro ⟨u, v, rest, same, first, linked, later⟩
        subst same
        exact (isWalk_cons_cons_iff ..).2 ⟨first, linked, (ih _).1 later⟩
      · intro hw
        match walk, hw.length_eq with
        | u :: v :: rest, _ =>
            obtain ⟨first, linked, later⟩ := (isWalk_cons_cons_iff ..).1 hw
            exact ⟨u, v, rest, rfl, first, linked, (ih _).2 later⟩

theorem Coherent.hopEdges_spec {g : Graph} (h : g.Coherent) (nodes edges : List Attributes) :
    ∀ hop ∈ g.hopEdges nodes edges, hop.Nodup ∧ ∀ e ∈ hop, e ∈ g.edges := by
  match nodes, edges with
  | [], _ => exact fun _ hhop => nomatch hhop
  | [_], _ => exact fun _ hhop => nomatch hhop
  | _ :: _ :: _, [] => exact fun _ hhop => nomatch hhop
  | n :: m :: nodes, r :: edges =>
      intro hop hhop
      rcases List.mem_cons.1 hhop with rfl | hhop
      · exact ⟨h.edgesBetween_nodup .., fun e he => ((h.mem_edgesBetween ..).1 he).1⟩
      · exact h.hopEdges_spec (m :: nodes) edges hop hhop

theorem eq_of_trace {g : Graph} {es fs : List Edge} (hes : ∀ e ∈ es, e ∈ g.edges)
    (hfs : ∀ f ∈ fs, f ∈ g.edges) (ces : es.IsChain (·.target = ·.source))
    (cfs : fs.IsChain (·.target = ·.source)) (h : Edge.trace es = Edge.trace fs) : es = fs := by
  induction es generalizing fs with
  | nil => cases fs with
    | nil => rfl
    | cons f fs => cases h
  | cons e es ih =>
      cases fs with
      | nil => cases h
      | cons f fs =>
          simp only [Edge.trace, List.map_cons, List.cons.injEq] at h
          obtain ⟨sources, targets, later⟩ := h
          have heads : e = f := eq_of_endpoints (hes e (List.mem_cons_self ..))
            (hfs f (List.mem_cons_self ..)) (Prod.ext sources targets)
          have tails : Edge.trace es = Edge.trace fs := by
            cases es with
            | nil => cases fs with
              | nil => rfl
              | cons f' fs => cases later
            | cons e' es => cases fs with
              | nil => cases later
              | cons f' fs =>
                  have meet := (List.isChain_cons_cons.1 ces).1
                  have meet' := (List.isChain_cons_cons.1 cfs).1
                  rw [Edge.trace, Edge.trace, later, ← meet, ← meet', targets]
          rw [heads, ih (fun e he => hes e (List.mem_cons_of_mem _ he))
            (fun f hf => hfs f (List.mem_cons_of_mem _ hf)) ces.tail cfs.tail tails]

theorem Coherent.walks_nodup {g : Graph} (h : g.Coherent) (nodes edges : List Attributes)
    (allowed : List Allowed) : (g.walks nodes edges allowed).Nodup := by
  have spec := h.hopEdges_spec nodes edges
  have stored {es : List Edge} (hes : es ∈ g.walkEdges nodes edges allowed) :
      ∀ e ∈ es, e ∈ g.edges := by
    obtain ⟨chosen, _⟩ := (mem_walkEdges_iff ..).1 hes
    intro e he
    obtain ⟨i, hi, rfl⟩ := List.getElem_of_mem he
    obtain ⟨hop, hhop, hmem⟩ : ∃ hop ∈ g.hopEdges nodes edges, es[i] ∈ hop :=
      ⟨_, List.getElem_mem (chosen.length_eq ▸ hi), List.Forall₂.get chosen hi _⟩
    exact (spec hop hhop).2 _ hmem
  refine List.Nodup.map_on (fun es hes fs hfs same => ?_)
    ((choices_nodup _ fun hop hhop => (spec hop hhop).1).filter _)
  exact eq_of_trace (stored hes) (stored hfs) ((mem_walkEdges_iff ..).1 hes).2.1
    ((mem_walkEdges_iff ..).1 hfs).2.1 same

theorem ofWalks_eq_nil_iff {walks : List (List NodeId)} (h : ∀ walk ∈ walks, walk ≠ []) :
    (walks.filterMap Fragment.ofWalk?).eraseDups = [] ↔ walks = [] := by
  have nonempty {walk : List NodeId} (hw : walk ≠ []) : Fragment.ofWalk? walk ≠ none := by
    cases walk with
    | nil => exact absurd rfl hw
    | cons v vs => simp [Fragment.ofWalk?, List.getLast?_cons]
  constructor
  · intro none_left
    cases walks with
    | nil => rfl
    | cons walk rest =>
        obtain ⟨f, hf⟩ := Option.ne_none_iff_exists'.1 (nonempty (h walk (List.mem_cons_self ..)))
        have : f ∈ ((walk :: rest).filterMap Fragment.ofWalk?).eraseDups :=
          List.mem_eraseDups.2 (List.mem_filterMap.2 ⟨walk, List.mem_cons_self .., hf⟩)
        rw [none_left] at this
        exact nomatch this
  · intro h
    subst h
    rfl

/-- Matching a chain answers with the ends of its walks, each pair where the enumeration meets it
first, and with nothing if there is no walk; it refuses filters that make no chain, and only those. -/
theorem matchChain_eq_walks {g : Graph} (h : g.Coherent) (nodes edges : List Attributes)
    (allowed : List Allowed) :
    (nodes.length = edges.length + 1 ∧ edges ≠ [] →
      g.matchChain nodes edges allowed = .ok
          (if g.walks nodes edges allowed = [] then none
            else some ((g.walks nodes edges allowed).filterMap Fragment.ofWalk?).eraseDups) ∧
        (g.walks nodes edges allowed).Nodup ∧
        ∀ walk, walk ∈ g.walks nodes edges allowed ↔ g.IsWalk nodes edges allowed walk) ∧
    (¬(nodes.length = edges.length + 1 ∧ edges ≠ []) →
      g.matchChain nodes edges allowed = .error ⟨nodes.length, edges.length⟩) := by
  constructor
  · intro ⟨shape, some_edge⟩
    have walk_iff := h.mem_walks_iff nodes edges shape some_edge allowed
    have nonempty : ∀ walk ∈ g.walks nodes edges allowed, walk ≠ [] := by
      intro walk hw empty
      subst empty
      have := ((walk_iff []).1 hw).length_eq
      simp only [List.length_nil] at this
      omega
    refine ⟨?_, h.walks_nodup .., walk_iff⟩
    have accepted : (decide (nodes.length = edges.length + 1) && !edges.isEmpty) = true := by
      simp [shape, some_edge]
    simp only [matchChain, accepted, if_true, chain, joinAll_hops, List.isEmpty_iff,
      ofWalks_eq_nil_iff nonempty]
  · intro misshapen
    rw [matchChain, if_neg]
    simpa using misshapen

/-- Two hops through a loop and a link in both directions, the middle node restricted. -/
theorem matchChain_eq_walks_loop :
    ∃ g, ofParts [⟨⟨1⟩, ∅⟩, ⟨⟨2⟩, ∅⟩] [⟨⟨1⟩, ⟨2⟩, ∅⟩, ⟨⟨1⟩, ⟨1⟩, ∅⟩, ⟨⟨2⟩, ⟨1⟩, ∅⟩] 2 = .ok g ∧
      g.Coherent ∧ g.matchChain [∅, ∅, ∅] [∅, ∅] [none, some [⟨1⟩]] =
        .ok (some [(⟨1⟩, ⟨2⟩), (⟨1⟩, ⟨1⟩), (⟨2⟩, ⟨2⟩), (⟨2⟩, ⟨1⟩)]) := by
  have built : ofParts [⟨⟨1⟩, ∅⟩, ⟨⟨2⟩, ∅⟩]
      [⟨⟨1⟩, ⟨2⟩, ∅⟩, ⟨⟨1⟩, ⟨1⟩, ∅⟩, ⟨⟨2⟩, ⟨1⟩, ∅⟩] 2 = .ok _ := rfl
  have coherent := (sound_ofParts built).coherent
  have answer := (matchChain_eq_walks coherent [∅, ∅, ∅] [∅, ∅] [none, some [⟨1⟩]]).1
    ⟨rfl, List.cons_ne_nil _ _⟩
  exact ⟨_, built, coherent, answer.1.trans rfl⟩

end Graph
end WordGraph
