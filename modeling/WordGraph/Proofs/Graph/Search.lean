import Mathlib.Data.List.Chain
import WordGraph.Proofs.Graph.Select
import WordGraph.Proofs.Graph.Survey

/-!
Why the search for a path finds a shortest one. A walk that leaves the nodes met so far passes the end
of a trail that is still in the queue. The trails of the queue go up in length, and by one at most; so
no walk to a new node is shorter than the first trail of the queue with that node behind it.
-/

namespace WordGraph.Graph

/-- Says that an edge leads from one node to another. -/
def Joined (g : Graph) (u v : NodeId) : Prop := ∃ e ∈ g.edges, e.endpoints = (u, v)

/-- Says of a row of nodes that it leads from one node to another along edges of the graph. -/
structure Leads (g : Graph) (source target : NodeId) (walk : List NodeId) : Prop where
  starts : walk.head? = some source
  ends : walk.getLast? = some target
  joined : walk.IsChain g.Joined

/-- Says of a row of nodes that it leads from one node to another, meets no node twice and is not
longer than any other walk between the two. -/
structure Shortest (g : Graph) (source target : NodeId) (path : List NodeId) : Prop where
  leads : g.Leads source target path
  nodup : path.Nodup
  minimal : ∀ walk, g.Leads source target walk → path.length ≤ walk.length

variable {g : Graph} {a b c source target : NodeId} {walk : List NodeId}

theorem joined_iff (g : Graph) (u v : NodeId) : g.Joined u v ↔ (u, v) ∈ g.edgeTable.keys := by
  rw [Joined, ← map_endpoints_edges, List.mem_map]

theorem Coherent.mem_neighbors_iff (h : g.Coherent) (u v : NodeId) :
    v ∈ g.neighbors u ↔ g.Joined u v :=
  (h.lists.mem_successors u v).trans (joined_iff g u v).symm

theorem Coherent.neighbors_nodup (h : g.Coherent) (u : NodeId) : (g.neighbors u).Nodup := by
  rw [neighbors, h.lists.successors_eq]
  refine List.Nodup.map_on (fun e he f hf same => ?_) (g.edgeTable.keys_nodup.filter _)
  have leaves {x : Endpoints} (hx : x ∈ g.edgeTable.keys.filter (·.1 = u)) : x.1 = u := by
    simpa using (List.mem_filter.1 hx).2
  exact Prod.ext ((leaves he).trans (leaves hf).symm) same

/-- The nodes next to a node that were not met. -/
def fresh (g : Graph) (met : List NodeId) (u : NodeId) : List NodeId :=
  (g.neighbors u).filter (· ∉ met)

theorem Coherent.mem_fresh_iff (h : g.Coherent) (met : List NodeId) (u v : NodeId) :
    v ∈ g.fresh met u ↔ g.Joined u v ∧ v ∉ met := by
  rw [fresh, List.mem_filter, h.mem_neighbors_iff, decide_eq_true_eq]

theorem Coherent.stored_of_joined (h : g.Coherent) {u v : NodeId} (joined : g.Joined u v) :
    v ∈ g.nodeTable.keys := (h.anchored _ ((joined_iff g u v).1 joined)).2

namespace Leads

theorem single (g : Graph) (a : NodeId) : g.Leads a a [a] := ⟨rfl, rfl, .singleton a⟩

theorem ne_nil (h : g.Leads a b walk) : walk ≠ [] := by
  intro nil
  subst nil
  cases h.starts

theorem exists_tail (h : g.Leads a b walk) : ∃ rest, walk = a :: rest :=
  List.head?_eq_some_iff.1 h.starts

theorem cons (step : g.Joined a b) (h : g.Leads b c walk) : g.Leads a c (a :: walk) := by
  obtain ⟨rest, rfl⟩ := h.exists_tail
  exact ⟨rfl, h.ends, .cons_cons step h.joined⟩

theorem concat (h : g.Leads a b walk) (step : g.Joined b c) : g.Leads a c (walk ++ [c]) where
  starts := by rw [List.head?_append, h.starts, Option.some_or]
  ends := List.getLast?_concat
  joined := by
    refine h.joined.append (.singleton c) fun x hx y hy => ?_
    rw [h.ends, Option.mem_some_iff] at hx
    rw [List.head?_cons, Option.mem_some_iff] at hy
    exact hx ▸ hy ▸ step

/-- A walk that ends outside of a set in which it starts takes a step out of it, and what it has done
before is shorter. -/
theorem exists_step_out (h : g.Leads a b walk) (inside : NodeId → Prop) (starts : inside a)
    (ends : ¬inside b) :
    ∃ u v before, inside u ∧ ¬inside v ∧ g.Joined u v ∧ g.Leads a u before ∧
      before.length + 1 ≤ walk.length := by
  induction walk generalizing a with
  | nil => exact absurd rfl h.ne_nil
  | cons x rest ih =>
      obtain rfl : x = a := Option.some.inj h.starts
      cases rest with
      | nil =>
          obtain rfl : x = b := Option.some.inj h.ends
          exact absurd starts ends
      | cons y rest =>
          obtain ⟨step, joined⟩ := List.isChain_cons_cons.1 h.joined
          by_cases within : inside y
          · obtain ⟨u, v, before, hu, hv, out, led, shorter⟩ := ih ⟨rfl, h.ends, joined⟩ within
            exact ⟨u, v, x :: before, hu, hv, out, led.cons step, Nat.succ_le_succ shorter⟩
          · exact ⟨x, y, [x], starts, within, step, single g x, by simp⟩

end Leads

/-- There is a walk exactly where edges lead on from one node to the next. -/
theorem exists_leads_iff (g : Graph) (a b : NodeId) :
    (∃ walk, g.Leads a b walk) ↔ Relation.ReflTransGen g.Joined a b := by
  constructor
  · intro ⟨walk, h⟩
    obtain ⟨rest, rfl⟩ := h.exists_tail
    refine List.relationReflTransGen_of_exists_isChain_cons rest h.joined ?_
    exact Option.some.inj ((List.getLast?_eq_some_getLast _).symm.trans h.ends)
  · intro h
    obtain ⟨rest, joined, ends⟩ := List.exists_isChain_cons_of_relationReflTransGen h
    exact ⟨a :: rest, rfl, (List.getLast?_eq_some_getLast _).trans (congrArg some ends), joined⟩

/-- What the search has found out when it is done with some of the nodes that it has met, and the
trails to the others are in the queue. -/
structure Searching (g : Graph) (source : NodeId) (done : List NodeId) (queue : List Trail)
    (met : List NodeId) : Prop where
  met_eq : met = done ++ queue.map Trail.node
  started : source ∈ met
  nodup : met.Nodup
  stored : ∀ id ∈ met, id ∈ g.nodeTable.keys
  closed : ∀ u ∈ done, ∀ v, g.Joined u v → v ∈ met
  shortest : ∀ t ∈ queue, g.Shortest source t.node t.path
  passed : ∀ t ∈ queue, ∀ id ∈ t.path, id ∈ met
  sorted : queue.Pairwise (·.path.length ≤ ·.path.length)
  level : ∀ t ∈ queue, ∀ u ∈ queue, u.path.length ≤ t.path.length + 1

theorem searching_start (stored : source ∈ g.nodeTable.keys) :
    g.Searching source [] [⟨source, []⟩] [source] where
  met_eq := rfl
  started := List.mem_singleton.2 rfl
  nodup := List.nodup_singleton _
  stored id hid := List.mem_singleton.1 hid ▸ stored
  closed _ hu := nomatch hu
  shortest t ht := by
    obtain rfl := List.mem_singleton.1 ht
    refine ⟨.single g source, List.nodup_singleton _, fun walk led => ?_⟩
    exact List.length_pos_iff.2 led.ne_nil
  passed t ht id hid := by
    obtain rfl := List.mem_singleton.1 ht
    exact hid
  sorted := List.pairwise_singleton ..
  level t ht u hu := by
    obtain rfl := List.mem_singleton.1 ht
    obtain rfl := List.mem_singleton.1 hu
    exact Nat.le_succ _

namespace Searching

variable {done met : List NodeId} {queue : List Trail} {t : Trail}

/-- A walk to a node that was not met goes beyond the end of a trail in the queue. -/
theorem exists_trail (s : g.Searching source done queue met) (new : target ∉ met)
    (led : g.Leads source target walk) : ∃ t ∈ queue, t.path.length + 1 ≤ walk.length := by
  obtain ⟨u, v, before, hu, hv, out, reached, shorter⟩ :=
    led.exists_step_out (· ∈ met) s.started new
  have waiting : u ∈ queue.map Trail.node := by
    rw [s.met_eq, List.mem_append] at hu
    exact hu.resolve_left fun finished => hv (s.closed u finished v out)
  obtain ⟨t, ht, rfl⟩ := List.mem_map.1 waiting
  exact ⟨t, ht, Nat.le_trans (Nat.succ_le_succ ((s.shortest t ht).minimal before reached)) shorter⟩

theorem length_le (s : g.Searching source done (t :: queue) met) {u : Trail}
    (hu : u ∈ t :: queue) :
    t.path.length ≤ u.path.length ∧ u.path.length ≤ t.path.length + 1 := by
  refine ⟨?_, s.level t (List.mem_cons_self ..) u hu⟩
  cases List.mem_cons.1 hu with
  | inl first => rw [first]
  | inr later => exact (List.pairwise_cons.1 s.sorted).1 u later

/-- The first trail of the queue leads on to a new node by a shortest path. -/
theorem extend_shortest (s : g.Searching source done (t :: queue) met) {v : NodeId}
    (step : g.Joined t.node v) (new : v ∉ met) : g.Shortest source v (t.extend v).path := by
  have here := s.shortest t (List.mem_cons_self ..)
  rw [Trail.path_extend]
  refine ⟨here.leads.concat step, ?_, fun walk led => ?_⟩
  · refine List.nodup_append.2 ⟨here.nodup, List.nodup_singleton v, fun x hx y hy same => new ?_⟩
    rw [List.mem_singleton] at hy
    exact hy ▸ same ▸ s.passed t (List.mem_cons_self ..) x hx
  · obtain ⟨u, hu, shorter⟩ := s.exists_trail new led
    rw [List.length_append, List.length_singleton]
    exact Nat.le_trans (Nat.succ_le_succ (s.length_le hu).1) shorter

/-- The trails of the next queue are no shorter than the first one of this queue, and longer by one at
most. -/
theorem length_next (s : g.Searching source done (t :: queue) met) {ids : List NodeId} {u : Trail}
    (hu : u ∈ queue ++ ids.map t.extend) :
    t.path.length ≤ u.path.length ∧ u.path.length ≤ t.path.length + 1 := by
  cases List.mem_append.1 hu with
  | inl old => exact s.length_le (List.mem_cons_of_mem _ old)
  | inr new =>
      obtain ⟨v, _, rfl⟩ := List.mem_map.1 new
      rw [Trail.length_path_extend]
      exact ⟨Nat.le_succ _, Nat.le_refl _⟩

/-- A round is done with the node of the first trail; its new neighbours go to the end of the queue. -/
theorem step (s : g.Searching source done (t :: queue) met) (h : g.Coherent) :
    g.Searching source (done ++ [t.node]) (queue ++ (g.fresh met t.node).map t.extend)
      (met ++ g.fresh met t.node) where
  met_eq := by
    rw [List.map_append, Trail.map_node_extend, List.append_assoc, ← List.append_assoc [t.node],
      ← List.append_assoc done, List.singleton_append, ← List.map_cons, ← s.met_eq]
  started := List.mem_append_left _ s.started
  nodup := by
    refine List.nodup_append.2 ⟨s.nodup, (h.neighbors_nodup _).filter _, fun x hx y hy same => ?_⟩
    exact ((h.mem_fresh_iff ..).1 hy).2 (same ▸ hx)
  stored id hid := by
    cases List.mem_append.1 hid with
    | inl old => exact s.stored id old
    | inr new => exact h.stored_of_joined ((h.mem_fresh_iff ..).1 new).1
  closed u hu v joined := by
    rw [List.mem_append]
    cases List.mem_append.1 hu with
    | inl before => exact .inl (s.closed u before v joined)
    | inr now =>
        obtain rfl := List.mem_singleton.1 now
        by_cases known : v ∈ met
        · exact .inl known
        · exact .inr ((h.mem_fresh_iff ..).2 ⟨joined, known⟩)
  shortest u hu := by
    cases List.mem_append.1 hu with
    | inl old => exact s.shortest u (List.mem_cons_of_mem _ old)
    | inr new =>
        obtain ⟨v, hv, rfl⟩ := List.mem_map.1 new
        obtain ⟨joined, unmet⟩ := (h.mem_fresh_iff ..).1 hv
        exact s.extend_shortest joined unmet
  passed u hu id hid := by
    rw [List.mem_append]
    cases List.mem_append.1 hu with
    | inl old => exact .inl (s.passed u (List.mem_cons_of_mem _ old) id hid)
    | inr new =>
        obtain ⟨v, hv, rfl⟩ := List.mem_map.1 new
        rw [Trail.path_extend, List.mem_append, List.mem_singleton] at hid
        rcases hid with before | rfl
        · exact .inl (s.passed t (List.mem_cons_self ..) id before)
        · exact .inr hv
  sorted := by
    refine List.pairwise_append.2 ⟨(List.pairwise_cons.1 s.sorted).2, ?_, fun u hu w hw => ?_⟩
    · refine List.pairwise_map.2 (List.pairwise_of_forall fun v w => ?_)
      rw [Trail.length_path_extend, Trail.length_path_extend]
    · obtain ⟨v, _, rfl⟩ := List.mem_map.1 hw
      rw [Trail.length_path_extend]
      exact (s.length_le (List.mem_cons_of_mem _ hu)).2
  level u hu w hw := Nat.le_trans (s.length_next hw).2 (Nat.succ_le_succ (s.length_next hu).1)

/-- When no trail is left, no walk leads to a node that was not met. -/
theorem not_leads (s : g.Searching source done [] met) (new : target ∉ met) (walk : List NodeId) :
    ¬g.Leads source target walk := by
  intro led
  obtain ⟨t, ht, _⟩ := s.exists_trail new led
  cases ht

end Searching

section Running

variable {s t found : Survey} {result : Option Survey}

/-- Says how a search ends that is taken round after round from a survey: with an empty queue or with
the target met. -/
inductive Ends (g : Graph) (target : NodeId) : Survey → Option Survey → Prop where
  | emptied {s : Survey} (empty : s.queue = []) : Ends g target s none
  | reached {s found : Survey} (last : g.round target s = .reached found) (met : target ∈ found.met) :
      Ends g target s (some found)
  | next {s t : Survey} {result : Option Survey} (goesOn : g.round target s = .next t)
      (rest : Ends g target t result) : Ends g target s result

theorem round_eq_emptied_iff : g.round target s = .emptied ↔ s.queue = [] := by
  rw [round, Survey.pop?]
  cases s.queue with
  | nil => exact ⟨fun _ => rfl, fun _ => rfl⟩
  | cons current queue =>
      dsimp only
      constructor
      · intro emptied
        split at emptied <;> cases emptied
      · intro empty
        cases empty

theorem met_of_reached (last : g.round target s = .reached found) : target ∈ found.met := by
  rw [round] at last
  split at last
  · cases last
  · split at last
    · rename_i met
      cases last
      exact Survey.met_of_meetAll met
    · cases last

/-- Whatever the graph and the survey are, a search comes to its end. -/
theorem search_ends (g : Graph) (target : NodeId) (s : Survey) :
    g.Ends target s (g.search target s) := by
  fun_induction g.search target s with
  | case1 s emptied => exact .emptied (round_eq_emptied_iff.1 emptied)
  | case2 s found reached => exact .reached reached (met_of_reached reached)
  | case3 s t goesOn ih => exact .next goesOn ih

/-- What holds between two rounds: the target was not met, and the trails that lead on are those of the
queue. -/
def Underway (g : Graph) (source target : NodeId) (s : Survey) : Prop :=
  ∃ done trails, g.Searching source done trails s.met ∧ s.Follows source trails ∧ target ∉ s.met

theorem underway_start (stored : source ∈ g.nodeTable.keys) (different : source ≠ target) :
    g.Underway source target (.start source) :=
  ⟨[], _, searching_start stored, Survey.follows_start source,
    fun met => different (List.mem_singleton.1 met).symm⟩

/-- Says of a survey that the way back from the target along the parents is a shortest path. -/
structure Finds (g : Graph) (source target : NodeId) (found : Survey) : Prop where
  shortest : g.Shortest source target (found.path source target)
  back : (found.path source target).reverse.IsChain fun v u => found.parent.find? v = some u

namespace Underway

theorem not_leads (u : g.Underway source target s) (empty : s.queue = []) (walk : List NodeId) :
    ¬g.Leads source target walk := by
  obtain ⟨done, trails, searching, follows, new⟩ := u
  have nothing := follows.queue_eq.symm.trans empty
  rw [List.map_eq_nil_iff] at nothing
  subst nothing
  exact searching.not_leads new walk

/-- A round meets the target at the end of a shortest path, or the search goes on as before. -/
theorem round (u : g.Underway source target s) (h : g.Coherent) :
    (∀ found, g.round target s = .reached found → g.Finds source target found) ∧
      ∀ t, g.round target s = .next t → g.Underway source target t := by
  obtain ⟨done, trails, searching, follows, new⟩ := u
  cases trails with
  | nil =>
      rw [Graph.round, follows.pop?_nil]
      constructor <;> rintro _ ⟨⟩
  | cons t trails =>
      obtain ⟨rest, popped, met_eq, follows, traced⟩ := follows.pop?_cons
      have distinct := h.neighbors_nodup t.node
      rw [← met_eq] at searching new
      rw [Graph.round, popped]
      by_cases here : target ∈ g.fresh rest.met t.node
      · obtain ⟨joined, _⟩ := (h.mem_fresh_iff ..).1 here
        obtain ⟨ids, met, mem, unmet⟩ := Survey.meetAll_found t.node distinct here
        have shortest := searching.extend_shortest joined new
        have traced := follows.traced_extend unmet traced mem
        have back := Survey.path_eq traced shortest.nodup
        simp only [met]
        refine ⟨fun found same => ?_, by rintro _ ⟨⟩⟩
        cases same
        constructor
        · exact back ▸ shortest
        · rw [← t.node_extend target, back, Trail.path, List.reverse_reverse]
          exact traced.isChain
      · have unmet (id : NodeId) (hid : id ∈ g.fresh rest.met t.node) : id ∉ rest.met :=
          ((h.mem_fresh_iff ..).1 hid).2
        have next := searching.step h
        rw [← Survey.met_meetThese rest t.node] at next
        simp only [Survey.meetAll_missed t.node distinct here]
        refine ⟨by rintro _ ⟨⟩, fun s same => ?_⟩
        cases same
        refine ⟨_, _, next, follows.meetThese unmet traced, ?_⟩
        rw [Survey.met_meetThese, List.mem_append, not_or]
        exact ⟨new, here⟩

/-- A search that ends with the target met has found a shortest path, and one that ends without it ends
because there is no walk. -/
theorem ends (u : g.Underway source target s) (h : g.Coherent) (e : g.Ends target s result) :
    (∀ found, result = some found → g.Finds source target found) ∧
      (result = none → ∀ walk, ¬g.Leads source target walk) := by
  induction e with
  | emptied empty => exact ⟨nofun, fun _ => u.not_leads empty⟩
  | reached last met => exact ⟨fun found same => (u.round h).1 found (Option.some.inj same ▸ last), nofun⟩
  | next goesOn _ ih => exact ih ((u.round h).2 _ goesOn)

end Underway
end Running

/-- A path between two nodes is found exactly if there is a walk, and what is found is shortest. -/
theorem Coherent.shortestPath_spec (h : g.Coherent) (a b : NodeId) :
    ((∃ path, g.shortestPath a b = some path) ↔
        g.hasNode a = true ∧ g.hasNode b = true ∧ ∃ walk, g.Leads a b walk) ∧
      ∀ path, g.shortestPath a b = some path → g.Shortest a b path := by
  rw [shortestPath]
  by_cases stored : g.hasNode a = true ∧ g.hasNode b = true
  · obtain ⟨hasSource, hasTarget⟩ := stored
    rw [if_neg (by simp [hasSource, hasTarget])]
    by_cases same : a = b
    · subst same
      rw [if_pos rfl]
      refine ⟨⟨fun _ => ⟨hasSource, hasTarget, _, .single g a⟩, fun _ => ⟨_, rfl⟩⟩, fun path found => ?_⟩
      obtain rfl := Option.some.inj found
      exact (searching_start ((hasNode_iff ..).1 hasSource)).shortest ⟨a, []⟩ (List.mem_cons_self ..)
    · rw [if_neg same]
      obtain ⟨found, missed⟩ :=
        (underway_start ((hasNode_iff ..).1 hasSource) same).ends h (g.search_ends b (.start a))
      simp only [Option.map_eq_some_iff]
      refine ⟨⟨fun ⟨path, s, done, same⟩ => ?_, fun ⟨_, _, walk, led⟩ => ?_⟩, ?_⟩
      · exact ⟨hasSource, hasTarget, _, (found s done).shortest.leads⟩
      · obtain ⟨s, done⟩ := Option.ne_none_iff_exists'.1 fun nothing => missed nothing walk led
        exact ⟨_, s, done, rfl⟩
      · intro path ⟨s, done, same⟩
        exact same ▸ (found s done).shortest
  · rw [if_pos (by simpa [imp_iff_not_or] using stored)]
    exact ⟨⟨nofun, fun ⟨hasSource, hasTarget, _⟩ => absurd ⟨hasSource, hasTarget⟩ stored⟩, nofun⟩

/-- Two different nodes are joined by an edge exactly if the path between them has no third node. -/
theorem Coherent.hasEdge_iff_shortestPath (h : g.Coherent) {a b : NodeId} (different : a ≠ b) :
    g.hasEdge a b = true ↔ g.shortestPath a b = some [a, b] := by
  obtain ⟨exists_iff, shortest⟩ := h.shortestPath_spec a b
  have joined_iff : g.hasEdge a b = true ↔ g.Joined a b :=
    (h.lists.linked_iff a b).trans (joined_iff g a b).symm
  rw [joined_iff]
  constructor
  · intro joined
    have direct : g.Leads a b [a, b] := (Leads.single g b).cons joined
    have ends := h.anchored _ ((Graph.joined_iff g a b).1 joined)
    obtain ⟨path, found⟩ := exists_iff.2
      ⟨(hasNode_iff ..).2 ends.1, (hasNode_iff ..).2 ends.2, _, direct⟩
    have short := (shortest path found).minimal _ direct
    obtain ⟨rest, rfl⟩ := (shortest path found).leads.exists_tail
    have last := (shortest _ found).leads.ends
    -- A path of one node would end where it starts.
    match rest, short with
    | [], _ => exact absurd (Option.some.inj last) different
    | [c], _ =>
        obtain rfl : c = b := Option.some.inj last
        exact found
  · intro found
    exact (List.isChain_cons_cons.1 (shortest _ found).leads.joined).1

end WordGraph.Graph
