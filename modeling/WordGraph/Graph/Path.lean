import WordGraph.Graph.Basic

/-!
Paths along the edges. `shortestPath` searches breadth first, notes for every node that it meets the
node before it, and goes back along these from the target. A search ends with the target met or with
nothing left to go on from; it comes to an end because no node is met twice.
-/

namespace WordGraph.Graph

/-- What a search has found out: the nodes met, the node from which each of them was met first, and
the nodes from which it is still to go on. -/
structure Survey where
  met : List NodeId
  parent : OrderedMap NodeId NodeId
  queue : List NodeId

namespace Survey

def start (source : NodeId) : Survey := ⟨[source], ∅, [source]⟩

/-- Takes the first node of the queue. -/
def pop? (s : Survey) : Option (NodeId × Survey) :=
  match s.queue with
  | [] => none
  | current :: queue => some (current, { s with queue })

def meet (s : Survey) (current next : NodeId) : Survey :=
  ⟨s.met ++ [next], s.parent.insert next current, s.queue ++ [next]⟩

/-- Meets in turn the nodes next to `current` that are new, and says whether the target was among
them; behind the target it does not go on. -/
def meetAll (target current : NodeId) (s : Survey) : List NodeId → Bool × Survey
  | [] => (false, s)
  | next :: rest =>
      if next ∈ s.met then s.meetAll target current rest
      else if next = target then (true, s.meet current next)
      else (s.meet current next).meetAll target current rest

/-- The nodes from `current` back along the parents to the source, or to a node without a parent.
Each round follows one parent. -/
def back (source : NodeId) (parent : OrderedMap NodeId NodeId) : Nat → NodeId → List NodeId
  | 0, current => [current]
  | rounds + 1, current =>
      if current = source then [current]
      else match parent.find? current with
        | some previous => current :: back source parent rounds previous
        | none => [current]

/-- The path to a node that was met. No parent is followed twice on the way back. -/
def path (s : Survey) (source target : NodeId) : List NodeId :=
  (back source s.parent s.parent.size target).reverse

end Survey

/-- What a round of a search comes to: there was nothing left to go on from, the target was met, or the
search goes on. -/
inductive Round where
  | emptied
  | reached (found : Survey)
  | next (s : Survey)

/-- A round takes the first node of the queue and meets its neighbours. -/
def round (g : Graph) (target : NodeId) (s : Survey) : Round :=
  match s.pop? with
  | none => .emptied
  | some (current, rest) =>
      match rest.meetAll target current (g.neighbors current) with
      | (true, found) => .reached found
      | (false, next) => .next next

section Termination

/-- All that is listed as a neighbour of some node. -/
def listed (g : Graph) : List NodeId := g.adjacency.outgoing.values.flatten

/-- What is left to do in a search: each listed node that was not met can still enter the queue, and
each round takes one node out of it. -/
def remaining (g : Graph) (s : Survey) : Nat :=
  (g.listed.filter (· ∉ s.met)).length + s.queue.length

theorem mem_listed (g : Graph) {u v : NodeId} (h : v ∈ g.neighbors u) : v ∈ g.listed := by
  rw [neighbors, Adjacency.successors] at h
  cases row : g.adjacency.outgoing.find? u with
  | none =>
      rw [row] at h
      cases h
  | some ids =>
      rw [row] at h
      have stored := (OrderedMap.find?_eq_some_iff ..).1 row
      exact List.mem_flatten.2 ⟨ids, List.mem_map_of_mem stored, h⟩

theorem remaining_meet (g : Graph) (s : Survey) (current : NodeId) {next : NodeId}
    (listed : next ∈ g.listed) (new : next ∉ s.met) :
    g.remaining (s.meet current next) ≤ g.remaining s := by
  have fewer : g.listed.filter (· ∉ (s.meet current next).met) =
      (g.listed.filter (· ∉ s.met)).filter (· ≠ next) := by
    rw [List.filter_filter]
    refine List.filter_congr fun x _ => ?_
    simp [Survey.meet, and_comm]
  have waiting : next ∈ g.listed.filter (· ∉ s.met) :=
    List.mem_filter.2 ⟨listed, decide_eq_true new⟩
  have shorter : ((g.listed.filter (· ∉ s.met)).filter (· ≠ next)).length <
      (g.listed.filter (· ∉ s.met)).length :=
    List.length_filter_lt_length_iff_exists.2 ⟨next, waiting, by simp⟩
  rw [remaining, remaining, fewer]
  simp only [Survey.meet, List.length_append, List.length_singleton]
  omega

theorem remaining_meetAll (g : Graph) (target current : NodeId) (s : Survey) {ns : List NodeId}
    (listed : ∀ n ∈ ns, n ∈ g.listed) :
    g.remaining (s.meetAll target current ns).2 ≤ g.remaining s := by
  induction ns generalizing s with
  | nil => exact Nat.le_refl _
  | cons next rest ih =>
      have others := fun n hn => listed n (List.mem_cons_of_mem _ hn)
      have now := g.remaining_meet s current (listed next (List.mem_cons_self ..))
      rw [Survey.meetAll]
      split
      · exact ih s others
      · rename_i new
        split
        · exact now new
        · exact Nat.le_trans (ih _ others) (now new)

/-- A round is done with one node of the queue, and the nodes that it puts there were not met. -/
theorem remaining_next {g : Graph} {target : NodeId} {s t : Survey}
    (goesOn : g.round target s = .next t) : g.remaining t < g.remaining s := by
  rw [round, Survey.pop?] at goesOn
  cases waiting : s.queue with
  | nil =>
      rw [waiting] at goesOn
      cases goesOn
  | cons current queue =>
      have fewer := g.remaining_meetAll target current { s with queue }
        fun n hn => g.mem_listed (u := current) hn
      simp only [waiting] at goesOn
      split at goesOn
      · cases goesOn
      · rename_i met
        cases goesOn
        rw [met] at fewer
        refine Nat.lt_of_le_of_lt fewer ?_
        rw [remaining, remaining, waiting, List.length_cons]
        exact Nat.lt_succ_self _

end Termination

/-- Takes round after round until there is nothing left to go on from, which gives nothing, or the
target was met. -/
def search (g : Graph) (target : NodeId) (s : Survey) : Option Survey :=
  match _goesOn : g.round target s with
  | .emptied => none
  | .reached found => some found
  | .next t => g.search target t
termination_by g.remaining s
decreasing_by exact remaining_next _goesOn

theorem search_eq_round (g : Graph) (target : NodeId) (s : Survey) :
    g.search target s = match g.round target s with
      | .emptied => none
      | .reached found => some found
      | .next t => g.search target t := by
  rw [search]
  split <;> rename_i goesOn <;> rw [goesOn]

/-- A path with the fewest edges; of several, the one that breadth-first search meets first. -/
def shortestPath (g : Graph) (source target : NodeId) : Option (List NodeId) :=
  if !g.hasNode source || !g.hasNode target then none
  else if source = target then some [source]
  else (g.search target (.start source)).map fun s => s.path source target

/-- A path with the number of its edges. -/
structure Route where
  nodes : List NodeId
  length : Nat
  deriving DecidableEq

def Route.ofNodes (nodes : List NodeId) : Route := ⟨nodes, nodes.length - 1⟩

def route? (g : Graph) (source target : NodeId) : Option Route :=
  (g.shortestPath source target).map Route.ofNodes

def reachable (g : Graph) (source target : NodeId) : Bool := (g.shortestPath source target).isSome

/-- The nodes to which both `a` and `b` have an edge, in the order of `a`. -/
def commonNeighbors (g : Graph) (a b : NodeId) : List NodeId :=
  (g.neighbors a).filter (· ∈ g.neighbors b)

end WordGraph.Graph
