import WordGraph.Proofs.Graph.Walks
import WordGraph.Proofs.Query.Dispatch
import WordGraph.Proofs.Query.Narrowing
import WordGraph.Proofs.Query.Reachable

/-!
What a MATCH answers. One node pattern answers with the nodes that it selects, three patterns with
the edges between such nodes, and more of them with the ends of the walks along them; each shape is
carried out in its own way, and all of them mean the same by the nodes that a pattern selects.
-/

namespace WordGraph

namespace Session

section Meaning

variable (s : Session) (c : Command)

/-- Says of an identity that it is that of a node which a pattern selects. -/
def Selected (p : Pattern) (id : NodeId) : Prop := ∃ n ∈ s.graph.nodes, n.id = id ∧ c.Selects p n

/-- Says of an edge that it is one of those that three patterns describe. -/
structure Relates (source relation target : Pattern) (e : Edge) : Prop where
  stored : e ∈ s.graph.edges
  source_selected : s.Selected c source e.source
  target_selected : s.Selected c target e.target
  related : e.attributes.includes relation.attributes = true

/-- Says that a walk through nodes and along edges that the patterns describe in turn leads from one
node to another. -/
inductive Spans : List Pattern → NodeId → NodeId → Prop where
  | node {p : Pattern} {id : NodeId} (selected : s.Selected c p id) : Spans [p] id id
  | hop {p relation next : Pattern} {rest : List Pattern} {e : Edge} {last : NodeId}
      (selected : s.Selected c p e.source) (stored : e ∈ s.graph.edges)
      (related : e.attributes.includes relation.attributes = true)
      (onward : Spans (next :: rest) e.target last) :
      Spans (p :: relation :: next :: rest) e.source last

/-- Says that these are the stored nodes with these identities, in their order. -/
structure Lists (nodes : List Node) (ids : List NodeId) : Prop where
  ids_eq : nodes.map Node.id = ids
  stored : ∀ n ∈ nodes, n ∈ s.graph.nodes

/-- A node pattern answers with the nodes that it selects. -/
def AnswersNodes (p : Pattern) (after : Session) (outcome : Outcome) : Prop :=
  ∃ ns, outcome = .nodes ns ∧ Keeps s.graph.nodes ns (c.Selects p) ∧
    after.binding? p.identifier = some (.nodes ns)

/-- An edge pattern answers with the edges that have its attributes. -/
def AnswersEdges (p : Pattern) (after : Session) (outcome : Outcome) : Prop :=
  ∃ es, outcome = .edges es ∧ es.Nodup ∧
    (∀ e, e ∈ es ↔ e ∈ s.graph.edges ∧ e.attributes.includes p.attributes = true) ∧
    after.binding? p.identifier = some (.edges es)

/-- What is bound behind a hop with these edges. -/
structure HopBound (source relation target : Pattern) (es : List Edge) (after : Session) : Prop where
  sources : ∃ ns, after.binding? source.identifier = some (.nodes ns) ∧
    s.Lists ns (es.map Edge.source).eraseDups
  targets : ∃ ns, after.binding? target.identifier = some (.nodes ns) ∧
    s.Lists ns (es.map Edge.target).eraseDups
  edges : after.binding? relation.identifier = some (.edges es)

/-- A hop answers with the edges that its patterns describe. Where they share a name, a later binding
covers an earlier one. -/
def AnswersHop (source relation target : Pattern) (after : Session) (outcome : Outcome) : Prop :=
  ∃ es, outcome = .edges es ∧ es.Nodup ∧ (∀ e, e ∈ es ↔ s.Relates c source relation target e) ∧
    ([source, relation, target].Pairwise (·.identifier ≠ ·.identifier) →
      s.HopBound source relation target es after)

/-- A longer chain answers with the ends of its walks, or says that there is none. -/
def AnswersChain (ps : List Pattern) (after : Session) (outcome : Outcome) : Prop :=
  ∃ fs : List Fragment, fs.Nodup ∧ (∀ f, f ∈ fs ↔ s.Spans c ps f.1 f.2) ∧
    (fs = [] → outcome = .noMatch ∧ after = s) ∧
    (fs ≠ [] → outcome = .chain fs ∧ ∀ p ∈ ps, after.binding? p.identifier = some (.chain fs))

/-- What a MATCH has to answer, to bind and to leave as it is. -/
structure Answers (after : Session) (outcome : Outcome) : Prop where
  graph_eq : after.graph = s.graph
  others_eq : ∀ name, name ∉ c.patterns.map Pattern.identifier →
    after.binding? name = s.binding? name
  answer : match c.patterns with
    | [p] => if p.role = .node then s.AnswersNodes c p after outcome
        else s.AnswersEdges p after outcome
    | [source, relation, target] => s.AnswersHop c source relation target after outcome
    | ps => s.AnswersChain c ps after outcome

end Meaning

variable {s : Session} {c : Command}

theorem binding?_bind (s : Session) (name other : String) (b : Binding) :
    (s.bind name b).binding? other = if name = other then some b else s.binding? other :=
  OrderedMap.find?_insert ..

theorem binding?_foldl_bind (s : Session) (b : Binding) (ps : List Pattern) (name : String) :
    (ps.foldl (fun s p => s.bind p.identifier b) s).binding? name =
      if name ∈ ps.map Pattern.identifier then some b else s.binding? name := by
  induction ps generalizing s with
  | nil => rfl
  | cons p ps ih =>
      rw [List.foldl_cons, ih, binding?_bind, List.map_cons]
      by_cases later : name ∈ ps.map Pattern.identifier
      · rw [if_pos later, if_pos (List.mem_cons_of_mem _ later)]
      · by_cases here : p.identifier = name
        · rw [if_neg later, if_pos here, if_pos (here ▸ List.mem_cons_self ..)]
        · rw [if_neg later, if_neg here, if_neg]
          rw [List.mem_cons, not_or]
          exact ⟨Ne.symm here, later⟩

theorem selected_iff_mem (s : Session) (c : Command) (p : Pattern) (id : NodeId) :
    s.Selected c p id ↔ id ∈ (s.matched c p).ids := by
  have kept := matched_keeps s c p
  rw [Filtered.ids, List.mem_map]
  constructor
  · intro ⟨n, stored, same, selected⟩
    exact ⟨n, (kept.mem_iff n).2 ⟨stored, selected⟩, same⟩
  · intro ⟨n, hn, same⟩
    obtain ⟨stored, selected⟩ := (kept.mem_iff n).1 hn
    exact ⟨n, stored, same, selected⟩

/-- The attributes and the allowed identities are looked at apart, the latter only if predicates are
about the pattern; together they say what the pattern selects. -/
theorem selected_iff (s : Session) (c : Command) (p : Pattern) (id : NodeId) :
    s.Selected c p id ↔
      s.graph.nodeHas p.attributes id = true ∧ (s.allowed c p).1.admits id = true := by
  rw [selected_iff_mem, allowed]
  cases group : c.group? p.identifier with
  | none =>
      rw [Graph.nodeHas_iff, matched, group]
      simp [filtered, Filtered.ids, Allowed.admits]
  | some _ =>
      have narrowed : id ∈ (s.matched c p).ids → s.graph.nodeHas p.attributes id = true := by
        rw [← selected_iff_mem, Graph.nodeHas_iff]
        rintro ⟨n, stored, same, selected⟩
        exact ⟨n, List.mem_filter.2 ⟨stored, selected.1⟩, same⟩
      simp only [Allowed.admits, Option.all_some, decide_eq_true_eq]
      exact ⟨fun h => ⟨narrowed h, h⟩, And.right⟩

theorem mem_nodes_of_distinctNodes {ids : List NodeId} {n : Node} (h : n ∈ s.distinctNodes ids) :
    n ∈ s.graph.nodes := by
  obtain ⟨id, _, found⟩ := List.mem_filterMap.1 h
  exact ((Graph.node?_eq_some_iff ..).1 found).1

theorem distinctNodes_lists (s : Session) {ids : List NodeId}
    (stored : ∀ id ∈ ids, id ∈ s.graph.nodeTable.keys) :
    s.Lists (s.distinctNodes ids) ids.eraseDups := by
  have found (xs : List NodeId) (hxs : ∀ id ∈ xs, id ∈ s.graph.nodeTable.keys) :
      (xs.filterMap s.graph.node?).map Node.id = xs := by
    induction xs with
    | nil => rfl
    | cons id xs ih =>
        obtain ⟨n, hn, same⟩ := Graph.exists_node? (hxs id (List.mem_cons_self ..))
        rw [List.filterMap_cons, hn, List.map_cons, same,
          ih fun other h => hxs other (List.mem_cons_of_mem _ h)]
  exact ⟨found _ fun id hid => stored id (List.mem_eraseDups.1 hid), fun _ => mem_nodes_of_distinctNodes⟩

/-- The edges of a hop as they are searched. -/
def joined (s : Session) (c : Command) (source relation target : Pattern) : List Edge :=
  (s.graph.edgesBetween (some source.attributes) (some target.attributes)
    (some relation.attributes)).filter fun e =>
      (s.allowed c source).1.admits e.source && (s.allowed c target).1.admits e.target

/-- Binds the three names of a hop in the order in which it is done. -/
def bindHop (s : Session) (source relation target : Pattern) (es : List Edge) : Session :=
  ((s.bind source.identifier (.nodes (s.distinctNodes (es.map Edge.source)))).bind
    target.identifier (.nodes (s.distinctNodes (es.map Edge.target)))).bind
    relation.identifier (.edges es)

theorem matchEdge_eq (s : Session) (c : Command) (source relation target : Pattern) :
    s.matchEdge c source relation target =
      ⟨s.bindHop source relation target (s.joined c source relation target),
        .edges (s.joined c source relation target),
        (s.allowed c source).2 ++ (s.allowed c target).2⟩ := rfl

theorem runMatch_node (s : Session) {c : Command} {p : Pattern} (patterns : c.patterns = [p])
    (role : p.role = .node) :
    ∃ effect, s.runMatch c = .ok effect ∧ s.Answers c effect.session effect.outcome := by
  refine ⟨_, by rw [runMatch.eq_def, patterns]; exact if_pos role, rfl, fun name other => ?_, ?_⟩
  · rw [patterns, List.map_singleton, List.mem_singleton] at other
    rw [binding?_bind, if_neg (Ne.symm other)]
  · simp only [patterns, role, if_true]
    exact ⟨_, rfl, matched_keeps s c p, by rw [binding?_bind, if_pos rfl]⟩

theorem runMatch_edge (s : Session) {c : Command} {p : Pattern} (patterns : c.patterns = [p])
    (role : p.role ≠ .node) :
    ∃ effect, s.runMatch c = .ok effect ∧ s.Answers c effect.session effect.outcome := by
  refine ⟨_, by rw [runMatch.eq_def, patterns]; exact if_neg role, rfl, fun name other => ?_, ?_⟩
  · rw [patterns, List.map_singleton, List.mem_singleton] at other
    rw [binding?_bind, if_neg (Ne.symm other)]
  · simp only [patterns, role, if_false]
    exact ⟨_, rfl, s.graph.edges_nodup.filter _, fun e => List.mem_filter,
      by rw [binding?_bind, if_pos rfl]⟩

/-- Says of a row of nodes that it is a walk as the search for a chain judges it: the attributes and
the allowed identities apart, the node patterns and the edge patterns in rows of their own. -/
def Passes (s : Session) (c : Command) (ps : List Pattern) (walk : List NodeId) : Prop :=
  s.graph.IsWalk ((everyOther ps).map Pattern.attributes)
    ((everyOther ps.tail).map Pattern.attributes) ((everyOther ps).map fun p => (s.allowed c p).1) walk

theorem passes_single_iff (s : Session) (c : Command) (p : Pattern) (id : NodeId) :
    s.Passes c [p] [id] ↔ s.Selected c p id := by
  rw [selected_iff]
  exact s.graph.isWalk_single_iff ..

theorem passes_cons_cons_iff (s : Session) (c : Command) (p relation next : Pattern)
    (rest : List Pattern) (u v : NodeId) (walk : List NodeId) :
    s.Passes c (p :: relation :: next :: rest) (u :: v :: walk) ↔
      s.Selected c p u ∧
        (∃ e ∈ s.graph.edges, e.endpoints = (u, v) ∧
          e.attributes.includes relation.attributes = true) ∧
        s.Passes c (next :: rest) (v :: walk) := by
  have linked : (∃ e, s.graph.edge? u v = some e ∧
        e.attributes.includes relation.attributes = true) ↔
      ∃ e ∈ s.graph.edges, e.endpoints = (u, v) ∧
        e.attributes.includes relation.attributes = true := by
    simp only [Graph.edge?_eq_some_iff, and_assoc]
  rw [selected_iff, ← linked]
  exact s.graph.isWalk_cons_cons_iff ..

/-- The walks that pass lead from where to where the patterns do. -/
theorem spans_iff (s : Session) (c : Command) (ps : List Pattern) (odd : ps.length % 2 = 1)
    (first last : NodeId) :
    s.Spans c ps first last ↔
      ∃ walk, s.Passes c ps walk ∧ Fragment.ofWalk? walk = some (first, last) := by
  -- A hop takes two patterns at a time, so that an odd number of them ends with a single node.
  match ps with
  | [] => exact absurd odd (by decide)
  | [_, _] => exact absurd odd (by simp)
  | [p] =>
      constructor
      · intro spans
        cases spans with
        | node selected => exact ⟨[first], (passes_single_iff ..).2 selected, rfl⟩
      · intro ⟨walk, passes, ends⟩
        obtain ⟨id, rfl⟩ := List.length_eq_one_iff.1 passes.length_eq
        cases ends
        exact .node ((passes_single_iff ..).1 passes)
  | p :: relation :: next :: rest =>
      have ih := spans_iff s c (next :: rest) (by simp only [List.length_cons] at odd ⊢; omega)
      constructor
      · intro spans
        cases spans with
        | @hop _ _ _ _ e _ selected stored related onward =>
            obtain ⟨walk, passes, ends⟩ := (ih ..).1 onward
            obtain ⟨walk, rfl⟩ := Fragment.ofWalk?_starts ends
            exact ⟨e.source :: e.target :: walk,
              (passes_cons_cons_iff ..).2 ⟨selected, ⟨e, stored, rfl, related⟩, passes⟩,
              (Fragment.ofWalk?_cons_cons ..).2 ⟨rfl, ends⟩⟩
      · intro ⟨walk, passes, ends⟩
        have two : 2 ≤ walk.length := by
          rw [passes.length_eq, List.length_map, length_everyOther]
          simp only [List.length_cons]
          omega
        obtain ⟨u, v, walk, rfl⟩ : ∃ u v tail, walk = u :: v :: tail := by
          match walk, two with
          | u :: v :: tail, _ => exact ⟨u, v, tail, rfl⟩
        obtain ⟨selected, ⟨e, stored, met, related⟩, onward⟩ := (passes_cons_cons_iff ..).1 passes
        obtain ⟨rfl, rfl⟩ := Prod.mk.inj met
        obtain ⟨rfl, onwardEnds⟩ := (Fragment.ofWalk?_cons_cons ..).1 ends
        exact .hop selected stored related ((ih ..).2 ⟨_, onward, onwardEnds⟩)

theorem fragments_nodup (s : Session) (c : Command) : (s.fragments c).Nodup := by
  rw [fragments, Graph.joinAll_hops]
  exact Distinct.nodup_eraseDups _

theorem mem_fragments_iff (shape : c.roles.length = 1 ∨ alternates c.roles = true)
    (several : c.patterns.length ≠ 1) (coherent : s.graph.Coherent) (f : Fragment) :
    f ∈ s.fragments c ↔ s.Spans c c.patterns f.1 f.2 := by
  obtain ⟨counts, some_edge⟩ := filters_shape shape several
  rw [fragments, Graph.joinAll_hops, List.mem_eraseDups, List.mem_filterMap,
    spans_iff s c _ (odd_length_patterns shape)]
  simp only [coherent.mem_walks_iff _ _ counts some_edge]
  exact Iff.rfl

section Coherent

variable (coherent : s.graph.Coherent)
include coherent

theorem mem_joined_iff (source relation target : Pattern) (e : Edge) :
    e ∈ s.joined c source relation target ↔ s.Relates c source relation target e := by
  rw [joined, List.mem_filter, coherent.mem_edgesBetween, Bool.and_eq_true]
  simp only [Option.all_some]
  constructor
  · intro ⟨⟨stored, hasSource, hasTarget, related⟩, fits, fits'⟩
    exact ⟨stored, (selected_iff ..).2 ⟨hasSource, fits⟩, (selected_iff ..).2 ⟨hasTarget, fits'⟩,
      related⟩
  · intro ⟨stored, sourceSelected, targetSelected, related⟩
    obtain ⟨hasSource, fits⟩ := (selected_iff ..).1 sourceSelected
    obtain ⟨hasTarget, fits'⟩ := (selected_iff ..).1 targetSelected
    exact ⟨⟨stored, hasSource, hasTarget, related⟩, fits, fits'⟩

theorem bindHop_bound {source relation target : Pattern}
    (distinct : [source, relation, target].Pairwise (·.identifier ≠ ·.identifier)) {es : List Edge}
    (stored : ∀ e ∈ es, e ∈ s.graph.edges) :
    s.HopBound source relation target es (s.bindHop source relation target es) := by
  simp only [List.pairwise_cons, List.mem_cons, List.not_mem_nil, or_false, forall_eq_or_imp,
    forall_eq] at distinct
  obtain ⟨⟨source_relation, source_target⟩, relation_target, _⟩ := distinct
  refine ⟨⟨_, ?_, distinctNodes_lists s fun id hid => ?_⟩,
    ⟨_, ?_, distinctNodes_lists s fun id hid => ?_⟩, ?_⟩
  · rw [bindHop, binding?_bind, if_neg (Ne.symm source_relation), binding?_bind,
      if_neg (Ne.symm source_target), binding?_bind, if_pos rfl]
  · obtain ⟨e, he, rfl⟩ := List.mem_map.1 hid
    exact coherent.source_mem e (stored e he)
  · rw [bindHop, binding?_bind, if_neg relation_target, binding?_bind, if_pos rfl]
  · obtain ⟨e, he, rfl⟩ := List.mem_map.1 hid
    exact coherent.target_mem e (stored e he)
  · rw [bindHop, binding?_bind, if_pos rfl]

theorem runMatch_hop {source relation target : Pattern}
    (patterns : c.patterns = [source, relation, target]) :
    ∃ effect, s.runMatch c = .ok effect ∧ s.Answers c effect.session effect.outcome := by
  have meaning := mem_joined_iff (c := c) coherent source relation target
  refine ⟨s.matchEdge c source relation target, by rw [runMatch.eq_def, patterns], rfl,
    fun name other => ?_, ?_⟩
  · simp only [patterns, List.map_cons, List.map_nil, List.mem_cons, List.not_mem_nil, or_false,
      not_or] at other
    obtain ⟨notSource, notRelation, notTarget⟩ := other
    rw [matchEdge_eq, bindHop, binding?_bind, if_neg (Ne.symm notRelation), binding?_bind,
      if_neg (Ne.symm notTarget), binding?_bind, if_neg (Ne.symm notSource)]
  · simp only [patterns, matchEdge_eq]
    exact ⟨_, rfl, (coherent.edgesBetween_nodup _ _ _).filter _, meaning, fun distinct =>
      bindHop_bound coherent distinct fun e he => ((meaning e).1 he).stored⟩

theorem runMatch_chain (shape : c.roles.length = 1 ∨ alternates c.roles = true)
    (noSingle : ∀ p, c.patterns ≠ [p])
    (noHop : ∀ source relation target, c.patterns ≠ [source, relation, target]) :
    ∃ effect, s.runMatch c = .ok effect ∧ s.Answers c effect.session effect.outcome := by
  have several := length_patterns_ne_one noSingle
  have meaning := mem_fragments_iff shape several coherent
  have run : s.runMatch c = s.matchChain c := by
    rw [runMatch.eq_def]
    split
    · exact absurd ‹_› (noSingle _)
    · exact absurd ‹_› (noHop _ _ _)
    · rfl
  refine ⟨_, run.trans (matchChain_eq s shape several), ?_, fun name other => ?_, ?_⟩
  · split
    · rfl
    · exact foldl_bind_graph ..
  · split
    · rfl
    · exact (binding?_foldl_bind ..).trans (if_neg other)
  · split
    · exact absurd ‹_› (noSingle _)
    · exact absurd ‹_› (noHop _ _ _)
    · refine ⟨s.fragments c, fragments_nodup s c, meaning, fun none => ?_, fun some => ?_⟩
      · rw [if_pos none]
        exact ⟨rfl, rfl⟩
      · rw [if_neg some]
        exact ⟨rfl, fun p hp =>
          (binding?_foldl_bind ..).trans (if_pos (List.mem_map_of_mem hp))⟩

theorem runMatch_answers (shape : c.roles.length = 1 ∨ alternates c.roles = true) :
    ∃ effect, s.runMatch c = .ok effect ∧ s.Answers c effect.session effect.outcome := by
  by_cases single : ∃ p, c.patterns = [p]
  · obtain ⟨p, patterns⟩ := single
    by_cases role : p.role = .node
    · exact runMatch_node s patterns role
    · exact runMatch_edge s patterns role
  by_cases hop : ∃ source relation target, c.patterns = [source, relation, target]
  · obtain ⟨source, relation, target, patterns⟩ := hop
    exact runMatch_hop coherent patterns
  exact runMatch_chain coherent shape (not_exists.1 single) fun source relation target patterns =>
    hop ⟨source, relation, target, patterns⟩

end Coherent

/-- In every session that can come about, a MATCH that passes its check is answered as its patterns
and predicates mean it. -/
theorem runCommand_answers (s : Session) (reached : s.Reachable) (c : Command)
    (matching : c.keyword = .matching) (accepted : c.check = .ok ()) :
    ∃ outcome, (s.runCommand c).2.result = .ok outcome ∧ s.Answers c (s.runCommand c).1 outcome := by
  have shaped := ((Command.check_eq_ok_iff c).1 accepted).1
  simp only [Command.Shaped, matching] at shaped
  obtain ⟨effect, done, answers⟩ := runMatch_answers reached.sound.coherent shaped.2.2
  have dispatched : s.dispatch c = .ok effect := by
    rw [dispatch.eq_def, matching]
    exact done
  rw [runCommand_of_check accepted dispatched]
  exact ⟨effect.outcome, rfl, answers⟩

/-- Two hops through imported edges, with a start that two predicates narrow and an end that has to have
an attribute; the edge to a node without it is not taken. -/
theorem runCommand_answers_narrowed :
    ∃ (s : Session) (c : Command), s.Reachable ∧
      Statement.parse (splitWords "MATCH n: x id<2 OR id>2 e: r n: y e: t n: z id:3 ;") =
        [.ok [c]] ∧
      s.graph.edges.map Edge.endpoints = [(⟨1⟩, ⟨2⟩), (⟨2⟩, ⟨3⟩), (⟨2⟩, ⟨4⟩)] ∧
      s.Answers c (s.runCommand c).1 (.chain [(⟨1⟩, ⟨3⟩)]) := by
  let s : Session :=
    feed ∅ (.edges [.fields ["1", "2"], .fields ["2", "3"], .fields ["2", "4"]])
  let third : Attributes := .put ∅ "id" "3" (by decide) (by decide)
  let c : Command := { keyword := .matching
                       patterns := [⟨.node, "x", ∅⟩, ⟨.edge, "r", ∅⟩, ⟨.node, "y", ∅⟩,
                         ⟨.edge, "t", ∅⟩, ⟨.node, "z", third⟩]
                       predicates := [.predicate ⟨"id", .less, "2", "x"⟩, .combinator .or,
                         .predicate ⟨"id", .greater, "2", "x"⟩] }
  have reached : s.Reachable := .fed .empty _
  refine ⟨s, c, reached, by decide +kernel, by decide +kernel, ?_⟩
  obtain ⟨outcome, _, answers⟩ := runCommand_answers s reached c rfl rfl
  have chain : s.AnswersChain c c.patterns (s.runCommand c).1 outcome := answers.answer
  have bound : (s.runCommand c).1.binding? "x" = some (.chain [(⟨1⟩, ⟨3⟩)]) := by decide +kernel
  obtain ⟨fs, _, _, nothing, something⟩ := chain
  have found : fs ≠ [] := by
    intro empty
    rw [(nothing empty).2] at bound
    exact absurd bound (by decide +kernel)
  obtain ⟨same, binds⟩ := something found
  have told := (binds _ (List.mem_cons_self ..)).symm.trans bound
  cases told
  exact same ▸ answers

end Session
end WordGraph
