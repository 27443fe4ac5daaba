import WordGraph.Proofs.Query.Linking

/-!
Bindings outlive the commands that made them, but not the nodes that they mention: what is bound is
found in the graph when it is bound, and whatever takes a node away forgets the bindings that mention
it. So every identity in a binding is that of a node, however a session is used.
-/

namespace WordGraph

namespace Fragment

/-- What holds of all ends before stretches are joined holds of the ends behind it. -/
theorem forall_ends_joinAll {P : NodeId → Prop} {hops : List (List Fragment)}
    (ends : ∀ hop ∈ hops, ∀ f ∈ hop, P f.1 ∧ P f.2) : ∀ f ∈ joinAll hops, P f.1 ∧ P f.2 := by
  have folded (rest : List (List Fragment)) : ∀ running : List Fragment,
      (∀ f ∈ running, P f.1 ∧ P f.2) → (∀ hop ∈ rest, ∀ f ∈ hop, P f.1 ∧ P f.2) →
        ∀ f ∈ rest.foldl join running, P f.1 ∧ P f.2 := by
    induction rest with
    | nil => exact fun _ held _ => held
    | cons hop rest ih =>
        intro running held others
        refine ih _ (fun f hf => ?_) fun other h => others other (List.mem_cons_of_mem _ h)
        rw [join, List.mem_eraseDups, List.mem_flatMap] at hf
        obtain ⟨l, hl, hf⟩ := hf
        obtain ⟨r, hr, rfl⟩ := List.mem_map.1 hf
        exact ⟨(held l hl).1, (others hop (List.mem_cons_self ..) r (List.mem_of_mem_filter hr)).2⟩
  cases hops with
  | nil => exact fun f hf => nomatch hf
  | cons hop hops =>
      refine folded hops _ (fun f hf => ?_) fun other h => ends other (List.mem_cons_of_mem _ h)
      exact ends hop (List.mem_cons_self ..) f (List.mem_eraseDups.1 hf)

end Fragment

theorem Graph.Coherent.ends_hops {g : Graph} (h : g.Coherent) (nodes edges : List Attributes)
    (allowed : List Allowed) :
    ∀ hop ∈ g.hops nodes edges allowed, ∀ f ∈ hop,
      f.1 ∈ g.nodeTable.keys ∧ f.2 ∈ g.nodeTable.keys := by
  fun_induction g.hops nodes edges allowed with
  | case1 n m nodes e edges allowed here there hop ih =>
      intro other member f hf
      cases List.mem_cons.1 member with
      | inl first =>
          subst first
          obtain ⟨edge, found, rfl⟩ := List.mem_map.1 (List.mem_of_mem_filter hf)
          have stored := ((h.mem_edgesBetween ..).1 found).1
          exact ⟨h.source_mem edge stored, h.target_mem edge stored⟩
      | inr later => exact ih other later f hf
  | case2 => exact fun hop none => absurd none List.not_mem_nil

namespace Binding

variable {g : Graph}

/-- Says that every identity in a binding is that of a node. -/
def Anchored (g : Graph) (b : Binding) : Prop := ∀ id ∈ b.ids, id ∈ g.nodeTable.keys

theorem anchored_nodes {ns : List Node} (stored : ∀ n ∈ ns, n ∈ g.nodes) : (nodes ns).Anchored g := by
  intro id hid
  obtain ⟨n, hn, rfl⟩ := List.mem_map.1 hid
  exact g.map_id_nodes ▸ List.mem_map_of_mem (stored n hn)

theorem anchored_edges {es : List Edge}
    (ends : ∀ e ∈ es, e.source ∈ g.nodeTable.keys ∧ e.target ∈ g.nodeTable.keys) :
    (edges es).Anchored g := by
  intro id hid
  obtain ⟨e, he, one⟩ := List.mem_flatMap.1 hid
  simp only [List.mem_cons, List.not_mem_nil, or_false] at one
  cases one with
  | inl source => exact source ▸ (ends e he).1
  | inr target => exact target ▸ (ends e he).2

theorem anchored_chain {fs : List Fragment}
    (ends : ∀ f ∈ fs, f.1 ∈ g.nodeTable.keys ∧ f.2 ∈ g.nodeTable.keys) : (chain fs).Anchored g := by
  intro id hid
  obtain ⟨f, hf, one⟩ := List.mem_flatMap.1 hid
  simp only [List.mem_cons, List.not_mem_nil, or_false] at one
  cases one with
  | inl first => exact first ▸ (ends f hf).1
  | inr last => exact last ▸ (ends f hf).2

end Binding

namespace Bindings

/-- Says that no binding mentions an identity that is not that of a node. -/
def Anchored (g : Graph) (bs : Bindings) : Prop :=
  ∀ name b, bs.find? name = some b → b.Anchored g

variable {g h : Graph} {bs : Bindings}

theorem anchored_empty : Anchored g ∅ := fun _ _ bound => nomatch bound

theorem Anchored.mono (anchored : bs.Anchored g)
    (grown : ∀ id ∈ g.nodeTable.keys, id ∈ h.nodeTable.keys) : bs.Anchored h :=
  fun name b bound id hid => grown id (anchored name b bound id hid)

theorem Anchored.insert (anchored : bs.Anchored g) {b : Binding} (stored : b.Anchored g)
    (name : String) : Bindings.Anchored g (bs.insert name b) := by
  intro other value bound
  rw [OrderedMap.find?_insert] at bound
  split at bound
  · cases bound
    exact stored
  · exact anchored other value bound

theorem Anchored.foldl_insert {α : Type} (anchored : bs.Anchored g) {xs : List α} (name : α → String)
    {value : α → Binding} (stored : ∀ x ∈ xs, (value x).Anchored g) :
    Bindings.Anchored g (xs.foldl (fun bs x => bs.insert (name x) (value x)) bs) := by
  induction xs generalizing bs with
  | nil => exact anchored
  | cons x xs ih =>
      exact ih (anchored.insert (stored x (List.mem_cons_self ..)) (name x)) fun y hy =>
        stored y (List.mem_cons_of_mem _ hy)

theorem find?_forget_eq_some_iff (bs : Bindings) (gone : List NodeId) (name : String) (b : Binding) :
    (bs.forget gone).find? name = some b ↔ bs.find? name = some b ∧ ∀ id ∈ b.ids, id ∉ gone := by
  rw [OrderedMap.find?_eq_some_iff, OrderedMap.find?_eq_some_iff, forget, OrderedMap.filter,
    List.mem_filter]
  simp [Binding.mentions]

/-- Forgetting what mentions the nodes that go keeps the others anchored. -/
theorem Anchored.forget (anchored : bs.Anchored g) (ids : List NodeId) :
    (bs.forget ids).Anchored (g.removeNodes ids).1 := by
  intro name b bound id hid
  obtain ⟨before, spared⟩ := (find?_forget_eq_some_iff bs ids name b).1 bound
  have stored := anchored name b before id hid
  rw [← Graph.map_id_nodes, List.mem_map] at stored
  obtain ⟨n, hn, rfl⟩ := stored
  have left := (g.mem_nodes_removeNodes ids n).2 ⟨hn, spared n.id hid⟩
  exact Graph.map_id_nodes _ ▸ List.mem_map_of_mem left

end Bindings

namespace Session

variable {s t : Session} {c : Command}

/-- Says that a session keeps no binding that mentions an identity without a node. -/
def Anchored (s : Session) : Prop := s.bindings.Anchored s.graph

theorem createNodes_anchored (h : s.Anchored) {ps : List Pattern} {ns : List Node}
    (done : s.createNodes ps = .ok (t, ns)) : t.Anchored := by
  induction ps generalizing s ns with
  | nil =>
      cases done
      exact h
  | cons p rest ih =>
      simp only [createNodes, Except.bind_eq_ok_iff, Except.mapError_eq_ok_iff] at done
      obtain ⟨g, added, ⟨final, more⟩, created, same⟩ := done
      cases same
      have known (id : NodeId) : id ∈ g.nodeTable.keys ↔
          id ∈ s.graph.nodeTable.keys ∨ id = s.graph.nextId := by
        obtain ⟨_, rfl⟩ := (Graph.addNode_eq_ok_iff ..).1 added
        exact OrderedMap.mem_keys_insert ..
      have older : s.bindings.Anchored g := h.mono fun id hid => (known id).2 (.inl hid)
      have newest : (Binding.node ⟨s.graph.nextId, p.attributes⟩).Anchored g := fun id hid =>
        (known id).2 (.inr (List.mem_singleton.1 hid))
      have next : (({ s with graph := g } : Session).bind p.identifier (.node ⟨s.graph.nextId,
          p.attributes⟩)).Anchored := older.insert newest p.identifier
      exact ih next created

theorem createEdges_anchored (h : s.Anchored) (c : Command) (ps : List Pattern) :
    (s.createEdges c ps).1.Anchored := by
  obtain ⟨kept, _, bound⟩ := s.createEdges_spec c ps
  rw [Anchored, bound]
  refine (h.mono fun id hid => kept ▸ hid).foldl_insert _ fun hop _ => ?_
  refine Binding.anchored_edges fun e he => ?_
  rw [kept]
  exact ends_linked he

theorem bindHop_anchored (h : s.Anchored) (source relation target : Pattern) {es : List Edge}
    (ends : ∀ e ∈ es, e.source ∈ s.graph.nodeTable.keys ∧ e.target ∈ s.graph.nodeTable.keys) :
    (s.bindHop source relation target es).Anchored := by
  have nodes (ids : List NodeId) : (Binding.nodes (s.distinctNodes ids)).Anchored s.graph :=
    Binding.anchored_nodes fun _ => mem_nodes_of_distinctNodes
  exact ((h.insert (nodes _) source.identifier).insert (nodes _) target.identifier).insert
    (Binding.anchored_edges ends) relation.identifier

theorem runMatch_anchored (coherent : s.graph.Coherent) (h : s.Anchored) {e : Effect}
    (done : s.runMatch c = .ok e) : e.session.Anchored := by
  have ends (edge : Edge) (stored : edge ∈ s.graph.edges) :
      edge.source ∈ s.graph.nodeTable.keys ∧ edge.target ∈ s.graph.nodeTable.keys :=
    ⟨coherent.source_mem edge stored, coherent.target_mem edge stored⟩
  cases finds_of_runMatch done with
  | @nodes p patterns role =>
      exact h.insert (Binding.anchored_nodes fun n hn => (((matched_keeps s c p).mem_iff n).1 hn).1) _
  | edges patterns role =>
      exact h.insert (Binding.anchored_edges fun e he => ends e (List.mem_of_mem_filter he)) _
  | @hop source relation target patterns =>
      rw [matchEdge_eq]
      exact bindHop_anchored h source relation target fun e he =>
        ends e ((mem_joined_iff coherent source relation target e).1 he).stored
  | nothing warnings => exact h
  | chain warnings =>
      rw [foldl_bind_eq]
      refine Bindings.Anchored.foldl_insert h _ fun _ _ => Binding.anchored_chain ?_
      exact Fragment.forall_ends_joinAll (coherent.ends_hops _ _ _)

theorem dispatch_anchored (coherent : s.graph.Coherent) (h : s.Anchored) {e : Effect}
    (done : s.dispatch c = .ok e) : e.session.Anchored := by
  cases carries_of_dispatch done with
  | create keyword created => exact createNodes_anchored h created
  | createEdge keyword => exact createEdges_anchored h c c.patterns
  | matching keyword found => exact runMatch_anchored coherent h found
  | modifyNode keyword flag first second =>
      refine Bindings.Anchored.mono h fun id hid => ?_
      rwa [Graph.keys_changeNodes]
  | modifyEdge keyword flag first second =>
      refine Bindings.Anchored.mono h fun id hid => ?_
      rwa [Graph.nodeTable_changeEdges]
  | deleteNode keyword first => exact Bindings.Anchored.forget h _
  | deleteEdge keyword first =>
      refine Bindings.Anchored.mono h fun id hid => ?_
      rwa [Graph.nodeTable_removeEdges]
  | clear keyword => exact Bindings.anchored_empty
  | hasPath keyword first second | shortestPath keyword first second | hasEdge keyword first second
  | commonNeighbors keyword first second | neighbor keyword first | returning keyword
  | showing keyword | visualize keyword => exact h

theorem runCommand_anchored (coherent : s.graph.Coherent) (h : s.Anchored) (c : Command) :
    (s.runCommand c).1.Anchored := by
  rw [runCommand]
  split
  · exact h
  · split
    · exact h
    · rename_i effect done
      exact dispatch_anchored coherent h done

theorem runCommands_anchored (sound : s.graph.Sound) (h : s.Anchored) (cs : List Command) :
    (s.runCommands cs).1.Anchored := by
  induction cs generalizing s with
  | nil => exact h
  | cons c rest ih =>
      exact ih (runCommand_sound sound c) (runCommand_anchored sound.coherent h c)

theorem runStatements_anchored (sound : s.graph.Sound) (h : s.Anchored)
    (statements : List (Except ParseError (List Command))) :
    (s.runStatements statements).1.Anchored := by
  induction statements generalizing s with
  | nil => exact h
  | cons statement rest ih =>
      cases statement with
      | error e => exact ih sound h
      | ok cs => exact ih (runCommands_sound sound cs) (runCommands_anchored sound h cs)

theorem feed_anchored (sound : s.graph.Sound) (h : s.Anchored) (input : Input) :
    (s.feed input).Anchored := by
  cases input with
  | command c => exact runCommand_anchored sound.coherent h c
  | text text =>
      rw [feed, execute, executeWords]
      exact runStatements_anchored sound h _
  | edges records =>
      rw [feed]
      split
      · exact Bindings.anchored_empty
      · exact h

theorem foldl_feed_anchored (sound : s.graph.Sound) (h : s.Anchored) (inputs : List Input) :
    (inputs.foldl feed s).Anchored := by
  induction inputs generalizing s with
  | nil => exact h
  | cons input rest ih => exact ih (feed_sound sound input) (feed_anchored sound h input)

/-- Whatever a session is given, be it texts, commands or edge lists, no binding of it mentions a node
that is not there. -/
theorem hasNode_of_bound {start : Session}
    (fresh : start = ∅ ∨ ∃ nodes edges counter g,
      Graph.ofParts nodes edges counter = .ok g ∧ start = ofGraph g)
    (inputs : List Input) :
    ∀ e ∈ (inputs.foldl feed start).bindings.entries, ∀ id ∈ e.2.ids,
      (inputs.foldl feed start).graph.hasNode id = true := by
  have begun : start.graph.Sound ∧ start.Anchored := by
    cases fresh with
    | inl empty =>
        subst empty
        exact ⟨Graph.sound_empty, Bindings.anchored_empty⟩
    | inr opened =>
        obtain ⟨nodes, edges, counter, g, built, rfl⟩ := opened
        exact ⟨Graph.sound_ofParts built, Bindings.anchored_empty⟩
  intro e bound id mentioned
  have found := (OrderedMap.find?_eq_some_iff _ e.1 e.2).2 bound
  exact (Graph.hasNode_iff ..).2 (foldl_feed_anchored begun.1 begun.2 inputs e.1 e.2 found id mentioned)

/-- Over a loop: one of two bindings mentions the node that is deleted. -/
theorem hasNode_of_bound_deleted :
    ∃ g s, Graph.ofParts [⟨⟨1⟩, ∅⟩] [⟨⟨1⟩, ⟨1⟩, ∅⟩] 4 = .ok g ∧
      [Input.text "CREATE n: a k:1 ; MATCH n: b e: r n: c ; DELETENODE n: x k:1 ;"].foldl feed
        (ofGraph g) = s ∧
      s.binding? "a" = none ∧ s.binding? "r" = some (.edges [⟨⟨1⟩, ⟨1⟩, ∅⟩]) ∧
      ∀ e ∈ s.bindings.entries, ∀ id ∈ e.2.ids, s.graph.hasNode id = true := by
  obtain ⟨g, built⟩ : ∃ g, Graph.ofParts [⟨⟨1⟩, ∅⟩] [⟨⟨1⟩, ⟨1⟩, ∅⟩] 4 = .ok g := ⟨_, rfl⟩
  refine ⟨g, _, built, rfl, ?_, ?_, hasNode_of_bound (.inr ⟨_, _, _, g, built, rfl⟩) _⟩
  · cases built
    decide +kernel
  · cases built
    decide +kernel

end Session
end WordGraph
