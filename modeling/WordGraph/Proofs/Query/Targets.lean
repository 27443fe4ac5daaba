import WordGraph.Proofs.Query.Acceptance
import WordGraph.Proofs.Query.Grouping
import WordGraph.Proofs.Query.Linking

/-!
Where predicates may stand, and what they do there. A command passes its check if it has the patterns
of its keyword and every predicate is about node patterns that the keyword narrows, and about no
other pattern. Such a command is carried out on the nodes that satisfy its predicates and on no
others.
-/

namespace WordGraph

/-- Says that predicates narrow the nodes of a pattern at this place, if it is a node pattern. -/
def Keyword.Narrows (k : Keyword) (place : Nat) : Prop :=
  match k with
  | .matching | .createEdge | .deleteNode | .hasPath | .shortestPath | .hasEdge | .commonNeighbors
  | .neighbor => True
  | .modifyNode => place = 0
  | _ => False

namespace Command

variable {c : Command}

/-- Says that a pattern has the name that a predicate is about, and that every such pattern is a node
pattern at a place where predicates narrow. -/
structure Targets (c : Command) (p : Predicate) : Prop where
  met : ∃ q ∈ c.patterns, q.identifier = p.identifier
  narrowed : ∀ place q, c.patterns[place]? = some q → q.identifier = p.identifier →
    q.role = .node ∧ c.keyword.Narrows place

theorem mem_narrowed_iff (shaped : c.Shaped) (q : Pattern) :
    (q ∈ c.narrowed.1 ↔
        ∃ place, c.patterns[place]? = some q ∧ q.role = .node ∧ c.keyword.Narrows place) ∧
      (q ∈ c.narrowed.2 ↔
        ∃ place, c.patterns[place]? = some q ∧ ¬(q.role = .node ∧ c.keyword.Narrows place)) := by
  have listed (P : Prop) : (∃ place : Nat, c.patterns[place]? = some q ∧ P) ↔ q ∈ c.patterns ∧ P := by
    rw [exists_and_right, List.mem_iff_getElem?]
  rw [narrowed]
  cases keyword : c.keyword with
  | matching | createEdge | deleteNode | hasPath | shortestPath | hasEdge | commonNeighbors
  | neighbor =>
      simp only [Keyword.Narrows, and_true, listed, List.partition_eq_filter_filter, List.mem_filter,
        Function.comp_apply, Bool.not_eq_true', decide_eq_true_eq, decide_eq_false_iff_not]
  | modifyNode =>
      simp only [Shaped, keyword, roles] at shaped
      obtain ⟨target, rest, patterns, role, _⟩ := List.map_eq_cons_iff.1 shaped.1
      rw [patterns]
      constructor
      · constructor
        · intro mem
          obtain rfl := List.mem_singleton.1 mem
          exact ⟨0, rfl, role, rfl⟩
        · intro found
          obtain ⟨place, here, _, first⟩ := found
          obtain rfl : place = 0 := first
          cases here
          exact List.mem_singleton.2 rfl
      · constructor
        · intro mem
          obtain ⟨place, here⟩ := List.mem_iff_getElem?.1 mem
          exact ⟨place + 1, here, fun narrowed => Nat.succ_ne_zero _ narrowed.2⟩
        · intro found
          obtain ⟨place, here, other⟩ := found
          cases place with
          | zero =>
              cases here
              exact absurd ⟨role, rfl⟩ other
          | succ place => exact List.mem_of_getElem? here
  | create | modifyEdge | deleteEdge | returning | clear | showing | visualize =>
      simp only [Keyword.Narrows, and_false, not_false_eq_true, List.not_mem_nil, and_true,
        exists_const, true_and]
      exact List.mem_iff_getElem?

/-- What a check of the predicates asks for. -/
theorem checkPredicate_eq_ok_iff (shaped : c.Shaped) (p : Predicate) :
    c.checkPredicate (.predicate p) = .ok () ↔ c.Targets p := by
  have inside : c.narrowed.1.any (·.identifier = p.identifier) = true ↔
      ∃ q ∈ c.narrowed.1, q.identifier = p.identifier := by
    simp only [List.any_eq_true, decide_eq_true_eq]
  have outside : c.narrowed.2.any (·.identifier = p.identifier) = true ↔
      ∃ q ∈ c.narrowed.2, q.identifier = p.identifier := by
    simp only [List.any_eq_true, decide_eq_true_eq]
  rw [checkPredicate, Except.ite_error_eq_ok_iff, Except.ite_error_eq_ok_iff, Bool.not_eq_true',
    Bool.not_eq_false, inside, outside]
  constructor
  · intro ⟨⟨q, mem, same⟩, clear, _⟩
    obtain ⟨place, here, _⟩ := (mem_narrowed_iff shaped q).1.1 mem
    refine ⟨⟨q, List.mem_of_getElem? here, same⟩, fun place other here named => ?_⟩
    exact not_not.1 fun unfit =>
        clear ⟨other, (mem_narrowed_iff shaped other).2.2 ⟨place, here, unfit⟩, named⟩
  · intro targets
    obtain ⟨q, mem, same⟩ := targets.met
    obtain ⟨place, here⟩ := List.mem_iff_getElem?.1 mem
    refine ⟨⟨q, (mem_narrowed_iff shaped q).1.2 ⟨place, here, targets.narrowed place q here same⟩,
      same⟩, fun ⟨other, mem, named⟩ => ?_, rfl⟩
    obtain ⟨place, here, unfit⟩ := (mem_narrowed_iff shaped other).2.1 mem
    exact unfit (targets.narrowed place other here named)

theorem check_eq_ok_iff_targets (c : Command) :
    c.check = .ok () ↔ c.Shaped ∧ ∀ p ∈ c.written, c.Targets p := by
  rw [check_eq_ok_iff]
  refine and_congr_right fun shaped => ⟨fun all p mem => ?_, fun all item mem => ?_⟩
  · exact (checkPredicate_eq_ok_iff shaped p).1 (all _ ((c.mem_written_iff p).1 mem))
  · cases item with
    | predicate p =>
        exact (checkPredicate_eq_ok_iff shaped p).2 (all p ((c.mem_written_iff p).2 mem))
    | combinator _ => rfl

end Command

/-- The pairs of nodes that an answer is about. -/
def Outcome.pairs : Outcome → List Endpoints
  | .hasPath answers | .hasEdge answers => answers.map fun a => (a.source, a.target)
  | .shortestPath answers => answers.map fun a => (a.source, a.target)
  | .commonNeighbors answers => answers.map fun a => (a.source, a.target)
  | _ => []

namespace Session

variable {s : Session} {c : Command}

/-- Says of the effect of a command that all predicates took part in it: it is about the nodes that
the patterns select by their attributes and by the predicates, and about no others. -/
def Heeds (s : Session) (c : Command) (e : Effect) : Prop :=
  match c.keyword with
  | .matching => s.Answers c e.session e.outcome
  | .createEdge => ∃ es, e.outcome = .edgesCreated es ∧ ∀ x, x ∈ es ↔
      ∃ h ∈ Hop.ofPatterns c.patterns, s.Selected c h.source x.source ∧
        s.Selected c h.target x.target ∧ x.attributes = h.relation.attributes
  | .modifyNode => ∃ target ns, c.patterns[0]? = some target ∧ e.outcome = .modifiedNodes ns ∧
      (∀ id, id ∈ ns.map Node.id ↔ s.Selected c target id) ∧
      ∀ id, ¬s.Selected c target id → e.session.graph.node? id = s.graph.node? id
  | .deleteNode => ∃ target removed, c.patterns[0]? = some target ∧ e.outcome = .deleted removed ∧
      ∀ n, (n ∈ removed.nodes ↔ n ∈ s.graph.nodes ∧ c.Selects target n) ∧
        (n ∈ e.session.graph.nodes ↔ n ∈ s.graph.nodes ∧ ¬c.Selects target n)
  | .neighbor => ∃ target entries, c.patterns[0]? = some target ∧ e.outcome = .neighbors entries ∧
      ∀ id, id ∈ entries.map Prod.fst ↔ s.Selected c target id
  | .hasPath | .shortestPath | .hasEdge | .commonNeighbors =>
      ∃ p q, c.patterns[0]? = some p ∧ c.patterns[1]? = some q ∧
        ∀ a b, (a, b) ∈ e.outcome.pairs ↔ s.Selected c p a ∧ s.Selected c q b
  | _ => False

theorem mem_selectedPairs_iff (s : Session) (c : Command) (p q : Pattern) (a b : NodeId) :
    (a, b) ∈ s.selectedPairs c p q ↔ s.Selected c p a ∧ s.Selected c q b := by
  simp only [selectedPairs, List.mem_flatMap, List.mem_map, Prod.mk.injEq, selected_iff_mem]
  constructor
  · rintro ⟨x, hx, y, hy, first, second⟩
    exact ⟨first ▸ hx, second ▸ hy⟩
  · rintro ⟨ha, hb⟩
    exact ⟨a, ha, b, hb, rfl, rfl⟩

/-- A stored node is selected by its identity if it is selected itself. -/
theorem selected_id_iff {n : Node} (stored : n ∈ s.graph.nodes) (p : Pattern) :
    s.Selected c p n.id ↔ c.Selects p n := by
  constructor
  · intro ⟨m, there, same, selected⟩
    exact Graph.eq_of_id there stored same ▸ selected
  · intro selected
    exact ⟨n, stored, rfl, selected⟩

/-- The nodes to be deleted go, with the answer, and the others stay. -/
theorem removeNodes_matched (s : Session) (c : Command) (p : Pattern) (n : Node) :
    (n ∈ (s.graph.removeNodes (s.matched c p).ids).2.nodes ↔ n ∈ s.graph.nodes ∧ c.Selects p n) ∧
      (n ∈ (s.graph.removeNodes (s.matched c p).ids).1.nodes ↔
        n ∈ s.graph.nodes ∧ ¬c.Selects p n) := by
  have distinct : (s.matched c p).ids.Nodup := (matched_keeps s c p).nodup
  obtain ⟨named, stored⟩ := Graph.nodes_removeNodes distinct fun id hid => mem_keys_of_matched hid
  constructor
  · constructor
    · intro mem
      have there := stored n mem
      have met : n.id ∈ (s.matched c p).ids := named ▸ List.mem_map_of_mem mem
      exact ⟨there, (selected_id_iff there p).1 ((selected_iff_mem ..).2 met)⟩
    · intro ⟨there, selected⟩
      have met := (selected_iff_mem ..).1 ((selected_id_iff there p).2 selected)
      rw [← named] at met
      obtain ⟨m, hm, same⟩ := List.mem_map.1 met
      exact Graph.eq_of_id (stored m hm) there same ▸ hm
  · rw [Graph.mem_nodes_removeNodes]
    refine and_congr_right fun there => not_congr ?_
    rw [← selected_iff_mem, selected_id_iff there]

theorem heeds_of_dispatch (coherent : s.graph.Coherent) {p : Predicate} (mem : p ∈ c.written)
    (accepted : c.check = .ok ()) {e : Effect} (done : s.dispatch c = .ok e) : s.Heeds c e := by
  obtain ⟨shaped, all⟩ := (Command.check_eq_ok_iff_targets c).1 accepted
  have targets := all p mem
  -- A keyword that narrows nothing has no pattern that the predicate could be about.
  have narrows : ∃ place, c.keyword.Narrows place := by
    obtain ⟨q, there, same⟩ := targets.met
    obtain ⟨place, here⟩ := List.mem_iff_getElem?.1 there
    exact ⟨place, (targets.narrowed place q here same).2⟩
  rw [Heeds]
  cases carries_of_dispatch done with
  | matching keyword found =>
      simp only [Command.Shaped, keyword] at shaped
      obtain ⟨effect, same, answers⟩ := runMatch_answers coherent shaped.2.2
      rw [found] at same
      cases same
      simpa only [keyword] using answers
  | createEdge keyword =>
      simp only [keyword]
      refine ⟨_, rfl, fun x => ?_⟩
      rw [(createEdges_spec s c c.patterns).2.1, List.mem_flatMap]
      simp only [mem_linked_iff]
  | modifyNode keyword flag first second =>
      simp only [keyword]
      refine ⟨_, _, first, rfl, fun id => ?_, fun id other => ?_⟩
      · rw [Graph.ids_changeNodes _ _ fun id hid => mem_keys_of_matched hid, selected_iff_mem]
      · exact Graph.node?_changeNodes _ _ _ (mt (selected_iff_mem ..).2 other)
  | deleteNode keyword first =>
      simp only [keyword]
      exact ⟨_, _, first, rfl, removeNodes_matched s c _⟩
  | neighbor keyword first =>
      simp only [keyword]
      refine ⟨_, _, first, rfl, fun id => ?_⟩
      rw [List.map_map, selected_iff_mem]
      exact Iff.of_eq (congrArg (id ∈ ·) (List.map_id _))
  | hasPath keyword first second | shortestPath keyword first second
  | hasEdge keyword first second | commonNeighbors keyword first second =>
      simp only [keyword]
      refine ⟨_, _, first, second, fun a b => ?_⟩
      rw [← mem_selectedPairs_iff, Outcome.pairs, List.map_map]
      exact Iff.of_eq (congrArg ((a, b) ∈ ·) (List.map_id _))
  | create keyword | modifyEdge keyword | deleteEdge keyword | returning keyword | clear keyword
  | showing keyword | visualize keyword =>
      obtain ⟨_, narrowed⟩ := narrows
      rw [keyword] at narrowed
      exact narrowed.elim

/-- An accepted command is carried out, if it has a predicate: it creates no nodes. -/
theorem dispatch_heeds (coherent : s.graph.Coherent) {p : Predicate} (mem : p ∈ c.written)
    (accepted : c.check = .ok ()) : ∃ e, s.dispatch c = .ok e ∧ s.Heeds c e := by
  have shaped := ((Command.check_eq_ok_iff c).1 accepted).1
  have room : c.keyword = .create → s.graph.counter.toNat + c.patterns.length < 2 ^ 64 := by
    intro keyword
    simp only [Command.Shaped, keyword] at shaped
    have written := (c.mem_written_iff p).1 mem
    rw [shaped.1] at written
    cases written
  obtain ⟨e, done⟩ := dispatch_succeeds s c shaped room
  exact ⟨e, done, heeds_of_dispatch coherent mem accepted done⟩

end Session

namespace Grammar

/-- What is written behind a pattern is about its name. -/
theorem PatternTree.exists_predicate {t : PatternTree} (filled : t.predicates ≠ []) :
    ∃ p, .predicate p ∈ t.predicates ∧ p.identifier = t.name := by
  obtain ⟨item, mem⟩ := List.exists_mem_of_ne_nil _ filled
  obtain ⟨i, inside, mem⟩ := List.mem_flatMap.1 mem
  cases i with
  | pair key value => cases mem
  | clauses first rest =>
      exact ⟨⟨first.key, first.comparison, first.threshold, t.name⟩,
        List.mem_flatMap.2 ⟨_, inside, List.mem_cons_self ..⟩, rfl⟩

theorem CommandTree.Yields.pattern {t : CommandTree} {c : Command} (h : t.Yields c) {place : Nat}
    {pt : PatternTree} (here : t.patterns[place]? = some pt) :
    ∃ q, c.patterns[place]? = some q ∧ pt.Yields q := by
  obtain ⟨length, each⟩ := List.forall₂_iff_get.1 h.patterns
  obtain ⟨bound, same⟩ := List.getElem?_eq_some_iff.1 here
  have bound' : place < c.patterns.length := length ▸ bound
  refine ⟨c.patterns[place], List.getElem?_eq_getElem bound', ?_⟩
  rw [← same]
  exact each place bound bound'

/-- A command is refused if a predicate of its tree stands where it narrows nothing. -/
theorem CommandTree.Yields.refused {t : CommandTree} {c : Command} (h : t.Yields c) {place : Nat}
    {pt : PatternTree} (here : t.patterns[place]? = some pt) (filled : pt.predicates ≠ [])
    (misplaced : pt.role ≠ .node ∨ ¬t.keyword.Narrows place) : ∃ fault, c.check = .error fault := by
  obtain ⟨q, there, yields⟩ := h.pattern here
  obtain ⟨p, mem, about⟩ := PatternTree.exists_predicate filled
  have written : p ∈ c.written := by
    rw [Command.mem_written_iff, h.predicates_eq]
    exact List.mem_flatMap.2 ⟨pt, List.mem_of_getElem? here, mem⟩
  cases verdict : c.check with
  | error fault => exact ⟨fault, rfl⟩
  | ok _ =>
      have targets := ((Command.check_eq_ok_iff_targets c).1 verdict).2 p written
      obtain ⟨role, narrows⟩ := targets.narrowed place q there (yields.identifier_eq.trans about.symm)
      rw [yields.role_eq] at role
      rw [h.keyword_eq] at narrows
      exact absurd misplaced (not_or.2 ⟨not_not_intro role, not_not_intro narrows⟩)

end Grammar

/-- No predicate of a command is dropped or misapplied. If the command passes its check, a predicate
is in one group, the name of which some of the patterns have and only such as this group narrows; and
the command is carried out on what the patterns select. A command that is read from words fails its
check if a predicate stands on an edge, on a truth value, or in another place that is not narrowed. -/
theorem Command.check_places_predicates (c : Command) :
    (c.check = .ok () → ∀ p ∈ c.written, ∃ g, c.Grouped p g ∧
      (∃ q ∈ c.patterns, q.identifier = g.identifier) ∧
      (∀ place q, c.patterns[place]? = some q → q.identifier = g.identifier →
        q.role = .node ∧ c.keyword.Narrows place ∧
          ∀ n, c.Selects q n ↔ n.attributes.includes q.attributes = true ∧ g.Holds n) ∧
      ∀ s : Session, s.graph.Coherent → ∃ e, s.dispatch c = .ok e ∧ s.Heeds c e) ∧
    ∀ t : Grammar.CommandTree, t.Yields c → ∀ place pt, t.patterns[place]? = some pt →
      pt.predicates ≠ [] → pt.role ≠ .node ∨ ¬t.keyword.Narrows place →
        ∃ fault, c.check = .error fault := by
  constructor
  · intro accepted p mem
    have targets := ((check_eq_ok_iff_targets c).1 accepted).2 p mem
    obtain ⟨g, found⟩ := exists_group mem
    have grouped := grouped_of_group? mem found
    refine ⟨g, grouped, grouped.named ▸ targets.met, fun place q here named => ?_,
      fun s coherent => Session.dispatch_heeds coherent mem accepted⟩
    have same := named.trans grouped.named
    obtain ⟨role, narrows⟩ := targets.narrowed place q here same
    refine ⟨role, narrows, fun n => and_congr_right fun _ => ?_⟩
    exact demands_iff (same ▸ found) n
  · intro t yields place pt here filled misplaced
    exact yields.refused here filled misplaced

/-- Of the two imported nodes below 3 the one with the attribute is deleted and the other one stays; and
a predicate on what a MODIFYNODE changes is refused. -/
theorem Command.check_places_predicates_deletion :
    ∃ (s : Session) (c d : Command), s.Reachable ∧
      Statement.parse (splitWords
        "DELETENODE n: x id:1 id<3 ; MODIFYNODE n: x n: c id<2 b: f val:1 ;") =
          [.ok [c], .ok [d]] ∧
      (∃ g e, c.Grouped ⟨"id", .less, "3", "x"⟩ g ∧ s.dispatch c = .ok e ∧ s.Heeds c e) ∧
      s.graph.nodes.map Node.id = [⟨1⟩, ⟨2⟩, ⟨3⟩] ∧
      (s.runCommand c).1.graph.nodes.map Node.id = [⟨2⟩, ⟨3⟩] ∧
      ∃ fault, d.check = .error fault := by
  let s : Session := Session.feed ∅ (.edges [.fields ["1", "2"], .fields ["2", "3"]])
  let first : Attributes := .put ∅ "id" "1" (by decide) (by decide)
  let c : Command := { keyword := .deleteNode
                       patterns := [⟨.node, "x", first⟩]
                       predicates := [.predicate ⟨"id", .less, "3", "x"⟩] }
  let change : Grammar.PatternTree := ⟨.node, "c", [.clauses ⟨"id", .less, "2"⟩ []]⟩
  let t : Grammar.CommandTree := ⟨.modifyNode,
    [⟨.node, "x", []⟩, change, ⟨.bool, "f", [.pair "val" "1"]⟩]⟩
  have reached : s.Reachable := .fed .empty _
  have storable : ∀ p ∈ t.patterns, Grammar.Storable p.pairs := by
    simp only [Grammar.Storable]
    decide +kernel
  have yields : t.Yields t.command := (Grammar.CommandTree.yields_iff storable _).2 rfl
  obtain ⟨g, grouped, _, _, carried⟩ :=
    (check_places_predicates c).1 rfl ⟨"id", .less, "3", "x"⟩ (by decide)
  obtain ⟨e, done, heeds⟩ := carried s reached.sound.coherent
  refine ⟨s, c, t.command, reached, by decide +kernel, ⟨g, e, grouped, done, heeds⟩,
    by decide +kernel, by decide +kernel, ?_⟩
  exact (check_places_predicates t.command).2 t yields 1 change rfl (List.cons_ne_nil _ _)
    (.inr Nat.one_ne_zero)

end WordGraph
