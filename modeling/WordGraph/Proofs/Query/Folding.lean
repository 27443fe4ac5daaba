import WordGraph.Proofs.Query.Grouping

/-!
What a predicate group computes and in which order. AND drops nodes and OR puts nodes behind the
others, so a node may be dropped and come back at another place. The nodes of a group stand in the
order of the step at which they came in for good, and within one step in the order of the nodes that
were filtered. This order is reached again when the result is filtered by the same group.
-/

namespace WordGraph

/-- A predicate keeps the nodes that it lets pass in their order. -/
theorem Predicate.exists_filter_eq (p : Predicate) (nodes : List Node) :
    ∃ q : Node → Bool, (p.filter nodes).nodes = nodes.filter q := by
  rw [filter, filterNodes]
  cases Numeral.number? p.threshold with
  | none => exact ⟨fun _ => false, (List.filter_false nodes).symm⟩
  | some limit => exact ⟨_, rfl⟩

namespace PredicateGroup

section Steps

/-- A group cut down to its first predicate and the `step` that follow. -/
def upTo (g : PredicateGroup) (step : Nat) : PredicateGroup := { g with rest := g.rest.take step }

/-- The nodes that filtering has after the step at which a further predicate is combined; after step
0 it has those of the first predicate. -/
def running (g : PredicateGroup) (nodes : List Node) (step : Nat) : List Node :=
  ((g.upTo step).filter nodes).nodes

/-- Says of a node that filtering has it from one step to another and did not have it just before. -/
structure HeldSince (g : PredicateGroup) (nodes : List Node) (step last : Nat) (n : Node) : Prop where
  held : ∀ k, step ≤ k → k ≤ last → n ∈ g.running nodes k
  entered : ∀ before, before + 1 = step → n ∉ g.running nodes before

instance (g : PredicateGroup) (nodes : List Node) (step last : Nat) (n : Node) :
    Decidable (g.HeldSince nodes step last n) :=
  decidable_of_iff ((∀ k ≤ last, step ≤ k → n ∈ g.running nodes k) ∧
      ∀ before < step, before + 1 = step → n ∉ g.running nodes before)
    ⟨fun h => ⟨fun k from_step to_last => h.1 k to_last from_step,
        fun before next => h.2 before (by omega) next⟩,
      fun h => ⟨fun k to_last from_step => h.held k from_step to_last,
        fun before _ next => h.entered before next⟩⟩

variable (g : PredicateGroup) (nodes : List Node)

theorem running_zero : g.running nodes 0 = (g.first.filter nodes).nodes := by
  rw [running, filter, upTo, List.take_zero, List.foldl_nil]

theorem running_length : g.running nodes g.rest.length = (g.filter nodes).nodes := by
  rw [running, upTo, List.take_length]

theorem running_succ {step : Nat} (h : step < g.rest.length) :
    g.running nodes (step + 1) = combine (g.running nodes step) g.rest[step].1
      (g.rest[step].2.filter nodes).nodes := by
  rw [running, running, filter, filter, upTo, upTo, List.take_add_one, List.getElem?_eq_getElem h,
    Option.toList_some, List.foldl_append]
  rfl

end Steps

namespace HeldSince

variable {g : PredicateGroup} {nodes : List Node} {step last : Nat} {n : Node}

theorem self_iff : g.HeldSince nodes (last + 1) (last + 1) n ↔
    n ∈ g.running nodes (last + 1) ∧ n ∉ g.running nodes last := by
  constructor
  · intro h
    exact ⟨h.held _ (Nat.le_refl _) (Nat.le_refl _), h.entered last rfl⟩
  · intro ⟨inside, outside⟩
    refine ⟨fun k from_step to_last => ?_, fun before next => ?_⟩
    · exact Nat.le_antisymm from_step to_last ▸ inside
    · exact Nat.succ.inj next ▸ outside

theorem zero_iff : g.HeldSince nodes 0 0 n ↔ n ∈ g.running nodes 0 :=
  ⟨fun h => h.held 0 (Nat.le_refl 0) (Nat.le_refl 0),
    fun inside => ⟨fun _ _ to_last => Nat.le_zero.1 to_last ▸ inside, nofun⟩⟩

/-- A node that filtering had is still there, or it is dropped. -/
theorem succ_iff (h : step ≤ last) : g.HeldSince nodes step (last + 1) n ↔
    g.HeldSince nodes step last n ∧ n ∈ g.running nodes (last + 1) := by
  constructor
  · intro since
    exact ⟨⟨fun k from_step to_last => since.held k from_step (by omega), since.entered⟩,
      since.held _ (by omega) (Nat.le_refl _)⟩
  · intro ⟨since, inside⟩
    refine ⟨fun k from_step to_last => ?_, since.entered⟩
    rcases Nat.lt_or_eq_of_le to_last with earlier | same
    · exact since.held k from_step (by omega)
    · exact same ▸ inside

theorem congr {other : List Node} (h : g.HeldSince nodes step last n)
    (same : ∀ k, n ∈ g.running nodes k ↔ n ∈ g.running other k) : g.HeldSince other step last n :=
  ⟨fun k from_step to_last => (same k).1 (h.held k from_step to_last),
    fun before next inside => h.entered before next ((same before).2 inside)⟩

/-- There is one step since which a node has been there. -/
theorem unique {other : Nat} (h : g.HeldSince nodes step last n) (le : step ≤ last)
    (h' : g.HeldSince nodes other last n) (le' : other ≤ last) : step = other := by
  have not_later {s t : Nat} (hs : g.HeldSince nodes s last n) (ht : g.HeldSince nodes t last n)
      (bound : t ≤ last) : ¬ s < t := fun later =>
    ht.entered (t - 1) (by omega) (hs.held (t - 1) (by omega) (by omega))
  have := not_later h h' le'
  have := not_later h' h le
  omega

end HeldSince

section Combining

/-- OR puts the new nodes behind the others. -/
theorem combine_or {running next : List Node} (distinct : (next.map Node.id).Nodup) :
    combine running .or next = running ++ next.filter (·.id ∉ running.map Node.id) := by
  rw [combine]
  induction next generalizing running with
  | nil => exact (List.append_nil _).symm
  | cons m next ih =>
      rw [List.map_cons, List.nodup_cons] at distinct
      rw [List.foldl_cons, ih distinct.2]
      by_cases met : m.id ∈ running.map Node.id
      · rw [if_pos met, List.filter_cons_of_neg (by simpa using met)]
      · have others : next.filter (·.id ∉ (running ++ [m]).map Node.id) =
            next.filter (·.id ∉ running.map Node.id) := by
          refine List.filter_congr fun x hx => decide_eq_decide.2 (not_congr ?_)
          have other : x.id ≠ m.id := fun same => distinct.1 (same ▸ List.mem_map_of_mem hx)
          rw [List.map_append, List.mem_append, List.map_singleton, List.mem_singleton]
          exact or_iff_left other
        rw [if_neg met, others, List.filter_cons_of_pos (by simpa using met), List.append_assoc,
          List.singleton_append]

variable {nodes : List Node} (distinct : (nodes.map Node.id).Nodup)
include distinct

/-- Either combinator keeps in place the nodes that stay, and puts those that come in behind them in
the order of all nodes. -/
theorem combine_eq {running : List Node} {P : Node → Prop} (h : Keeps nodes running P)
    (c : Combinator) (q : Node → Bool) :
    combine running c (nodes.filter q) =
      running.filter (· ∈ combine running c (nodes.filter q)) ++
        nodes.filter fun n => n ∈ combine running c (nodes.filter q) ∧ n ∉ running := by
  have inside {n : Node} (hn : n ∈ running) : n ∈ nodes := ((h.mem_iff n).1 hn).1
  cases c with
  | and =>
      have none_new : nodes.filter (fun n => n ∈ combine running .and (nodes.filter q) ∧
          n ∉ running) = [] := by
        refine List.filter_eq_nil_iff.2 fun n _ => ?_
        rw [decide_eq_true_eq]
        intro ⟨kept, new⟩
        exact new (List.mem_filter.1 kept).1
      rw [none_new, List.append_nil, combine]
      exact List.filter_congr fun n hn => by simp [hn]
  | or =>
      have next_distinct : ((nodes.filter q).map Node.id).Nodup :=
        distinct.sublist (List.filter_sublist.map Node.id)
      rw [combine_or next_distinct]
      have all_stay : running.filter (· ∈ running ++ (nodes.filter q).filter
          (·.id ∉ running.map Node.id)) = running :=
        List.filter_eq_self.2 fun n hn => decide_eq_true (List.mem_append_left _ hn)
      rw [all_stay, List.filter_filter]
      congr 1
      refine List.filter_congr fun n hn => ?_
      have known : n.id ∈ running.map Node.id ↔ n ∈ running :=
        ⟨h.mem_of_id distinct hn, List.mem_map_of_mem⟩
      simp only [List.mem_append, List.mem_filter, known]
      by_cases there : n ∈ running <;> simp [there, hn]

end Combining

section Order

variable {nodes : List Node} (distinct : (nodes.map Node.id).Nodup)
include distinct

theorem running_keeps (g : PredicateGroup) (step : Nat) :
    Keeps nodes (g.running nodes step) (g.upTo step).Holds := filter_keeps distinct (g.upTo step)

/-- The nodes stand in the order of the steps since which they have been there. A step drops some of
every row and puts one row behind them. -/
theorem running_eq (g : PredicateGroup) {last : Nat} (h : last ≤ g.rest.length) :
    g.running nodes last =
      (List.range (last + 1)).flatMap fun step => nodes.filter (g.HeldSince nodes step last ·) := by
  induction last with
  | zero =>
      obtain ⟨q, first⟩ := g.first.exists_filter_eq nodes
      have start : g.running nodes 0 = nodes.filter q := (g.running_zero nodes).trans first
      rw [List.range_one, List.flatMap_singleton, start]
      refine List.filter_congr fun n hn => ?_
      simp [HeldSince.zero_iff, start, hn]
  | succ last ih =>
      obtain ⟨q, next⟩ := g.rest[last].2.exists_filter_eq nodes
      have step := g.running_succ nodes h
      have split := combine_eq distinct (running_keeps distinct g last) g.rest[last].1 q
      rw [← next, ← step] at split
      have stay : (g.running nodes last).filter (· ∈ g.running nodes (last + 1)) =
          (List.range (last + 1)).flatMap fun since =>
            nodes.filter (g.HeldSince nodes since (last + 1) ·) := by
        conv_lhs => rw [ih (by omega), List.filter_flatMap]
        refine List.flatMap_congr fun since before => ?_
        have bound : since ≤ last := Nat.le_of_lt_succ (List.mem_range.1 before)
        rw [List.filter_filter]
        refine List.filter_congr fun n _ => ?_
        rw [Bool.and_comm, ← Bool.decide_and]
        exact decide_eq_decide.2 (HeldSince.succ_iff bound).symm
      have come : nodes.filter (fun n => n ∈ g.running nodes (last + 1) ∧ n ∉ g.running nodes last) =
          nodes.filter (g.HeldSince nodes (last + 1) (last + 1) ·) :=
        List.filter_congr fun n _ => decide_eq_decide.2 HeldSince.self_iff.symm
      rw [split, stay, come, List.range_succ (n := last + 1), List.flatMap_append,
        List.flatMap_singleton]

/-- On the nodes that are left at the end, filtering them again goes step by step as before. -/
theorem heldSince_again_iff (g : PredicateGroup) {n : Node} (left : n ∈ (g.filter nodes).nodes)
    (step last : Nat) : g.HeldSince (g.filter nodes).nodes step last n ↔ g.HeldSince nodes step last n := by
  have kept := filter_keeps distinct g
  have same (k : Nat) : n ∈ g.running (g.filter nodes).nodes k ↔ n ∈ g.running nodes k := by
    rw [(running_keeps kept.nodup g k).mem_iff, (running_keeps distinct g k).mem_iff]
    exact and_congr_left fun _ => iff_of_true left ((kept.mem_iff n).1 left).1
  exact ⟨fun h => h.congr same, fun h => h.congr fun k => (same k).symm⟩

/-- The row of a step is found in the result as it is found in all nodes. -/
theorem filter_heldSince (g : PredicateGroup) {step : Nat} (h : step ≤ g.rest.length) :
    (g.filter nodes).nodes.filter (g.HeldSince nodes step g.rest.length ·) =
      nodes.filter (g.HeldSince nodes step g.rest.length ·) := by
  have row (other : Nat) (there : other ∈ List.range (g.rest.length + 1))
      (differs : decide (other = step) = false) :
      (nodes.filter (g.HeldSince nodes other g.rest.length ·)).filter
        (g.HeldSince nodes step g.rest.length ·) = [] := by
    refine List.filter_eq_nil_iff.2 fun n hn since => of_decide_eq_false differs ?_
    exact (of_decide_eq_true (List.mem_filter.1 hn).2).unique
      (Nat.le_of_lt_succ (List.mem_range.1 there)) (of_decide_eq_true since) h
  have alone : (List.range (g.rest.length + 1)).filter (· = step) = [step] := by
    rw [List.filter_eq, List.count_eq_one_of_mem List.nodup_range
      (List.mem_range.2 (Nat.lt_succ_of_le h))]
    rfl
  rw [← running_length, running_eq distinct g (Nat.le_refl _), List.filter_flatMap,
    ← Graph.flatMap_filter_of_empty _ _ _ row, alone, List.flatMap_singleton, List.filter_filter]
  exact List.filter_congr fun n _ => Bool.and_self _

/-- Filtering by a group keeps the nodes for which its predicates hold, joined from the left, each of
them once and in the order of the step since which filtering had it; filtering the result again
changes nothing. -/
theorem filter_folds (g : PredicateGroup) :
    Keeps nodes (g.filter nodes).nodes g.Holds ∧
      (g.filter nodes).nodes = ((List.range g.size).flatMap fun step =>
        nodes.filter (g.HeldSince nodes step g.rest.length ·)) ∧
      (g.filter (g.filter nodes).nodes).nodes = (g.filter nodes).nodes := by
  have order {nodes : List Node} (distinct : (nodes.map Node.id).Nodup) :
      (g.filter nodes).nodes = (List.range g.size).flatMap fun step =>
        nodes.filter (g.HeldSince nodes step g.rest.length ·) := by
    rw [← running_length, running_eq distinct g (Nat.le_refl _), size, Nat.add_comm]
  have kept := filter_keeps distinct g
  refine ⟨kept, order distinct, ?_⟩
  rw [order kept.nodup]
  conv_rhs => rw [order distinct]
  refine List.flatMap_congr fun step there => ?_
  have bound : step ≤ g.rest.length := by
    have := List.mem_range.1 there
    rw [size] at this
    omega
  rw [← filter_heldSince distinct g bound]
  exact List.filter_congr fun n left => decide_eq_decide.2 (heldSince_again_iff distinct g left ..)

end Order

/-- The first node is dropped by AND and comes back by OR, behind the others. -/
theorem filter_folds_back :
    let node (id : UInt64) (pairs : List (String × String)) : Node :=
      ⟨⟨id⟩, (Attributes.ofList pairs).toOption.getD ∅⟩
    let nodes := [node 1 [("salary", "500"), ("age", "60")],
      node 2 [("salary", "2000"), ("age", "lots")], node 3 [("salary", "3000")]]
    let g : PredicateGroup := ⟨"p", ⟨"salary", .greater, "0", "p"⟩,
      [(.and, ⟨"salary", .greater, "1000", "p"⟩), (.or, ⟨"age", .greater, "50", "p"⟩)]⟩
    (nodes.map Node.id).Nodup ∧ (g.filter nodes).ids = [⟨2⟩, ⟨3⟩, ⟨1⟩] ∧
      (∀ n ∈ nodes, g.Holds n) ∧
      (g.filter (g.filter nodes).nodes).nodes = (g.filter nodes).nodes := by
  intro node nodes g
  have distinct : (nodes.map Node.id).Nodup := by decide
  have order : (g.filter nodes).ids = [⟨2⟩, ⟨3⟩, ⟨1⟩] := by decide +kernel
  have all : ∀ n ∈ nodes, n ∈ (g.filter nodes).nodes := by decide +kernel
  obtain ⟨kept, _, again⟩ := filter_folds distinct g
  exact ⟨distinct, order, fun n hn => ((kept.mem_iff n).1 (all n hn)).2, again⟩

end PredicateGroup
end WordGraph
