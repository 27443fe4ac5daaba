import WordGraph.Proofs.Graph.Chain

/-!
Joins of hops in any order. A join may be made from the left or from the right, and repeated
stretches may be dropped before it on either side: the same stretches come out in the same order. So
whatever neighbours are joined first, a row of hops gives what a chain makes of it from the left.
-/

namespace WordGraph

namespace Fragment

/-- Both sides choose a stretch from every list, the first list outermost. -/
theorem spread_assoc (a b c : List Fragment) :
    spread (spread a b) c = spread a (spread b c) := by
  have behind (x y : Fragment) :
      (((c.filter (·.1 = y.2)).map fun z => (y.1, z.2)).filter (·.1 = x.2)).map (fun z => (x.1, z.2)) =
        if y.1 = x.2 then (c.filter (·.1 = y.2)).map fun z => (x.1, z.2) else [] := by
    rw [List.filter_map, List.map_map]
    by_cases meets : y.1 = x.2 <;> simp [Function.comp_def, meets]
  have chosen (x : Fragment) :
      ((b.filter (·.1 = x.2)).flatMap fun y => (c.filter (·.1 = y.2)).map fun z => (x.1, z.2)) =
        b.flatMap fun y =>
          if y.1 = x.2 then (c.filter (·.1 = y.2)).map fun z => (x.1, z.2) else [] := by
    induction b with
    | nil => rfl
    | cons y b ih => by_cases meets : y.1 = x.2 <;> simp [meets, ih]
  simp only [spread, List.flatMap_assoc, List.flatMap_map, List.filter_flatMap, List.map_flatMap,
    behind, chosen]

theorem spread_eraseDups (a b : List Fragment) :
    (spread a b.eraseDups).eraseDups = (spread a b).eraseDups := by
  refine Distinct.eraseDups_flatMap_congr fun l _ => ?_
  rw [← Distinct.eraseDups_filter, Distinct.eraseDups_map_eraseDups]

theorem eraseDups_join_left (a b : List Fragment) : join a.eraseDups b = join a b :=
  join_eraseDups a b

theorem eraseDups_join_right (a b : List Fragment) : join a b.eraseDups = join a b :=
  spread_eraseDups a b

theorem join_join (a b c : List Fragment) : join (join a b) c = join a (join b c) := by
  calc join (join a b) c
    _ = (spread (spread a b) c).eraseDups := join_eraseDups (spread a b) c
    _ = (spread a (spread b c)).eraseDups := by rw [spread_assoc]
    _ = join a (join b c) := (spread_eraseDups a (spread b c)).symm

/-- A join in front of further ones may as well be made behind them. -/
theorem foldl_join_join (a b : List Fragment) (hops : List (List Fragment)) :
    hops.foldl join (join a b) = join a (hops.foldl join b) := by
  induction hops generalizing b with
  | nil => rfl
  | cons hop hops ih => rw [List.foldl_cons, List.foldl_cons, join_join, ih]

theorem joinAll_append {left right : List (List Fragment)} (some_left : left ≠ [])
    (some_right : right ≠ []) : joinAll (left ++ right) = join (joinAll left) (joinAll right) := by
  obtain ⟨first, left, rfl⟩ := List.exists_cons_of_ne_nil some_left
  obtain ⟨next, right, rfl⟩ := List.exists_cons_of_ne_nil some_right
  rw [List.cons_append, joinAll, List.foldl_append, List.foldl_cons, joinAll, joinAll,
    ← foldl_join_join, eraseDups_join_right]

end Fragment

/-- An order in which a row of hops is joined; every join is of two stretches of the row. -/
inductive JoinTree where
  | hop (fragments : List Fragment)
  | meet (left right : JoinTree)

namespace JoinTree

def hops : JoinTree → List (List Fragment)
  | hop fragments => [fragments]
  | meet left right => left.hops ++ right.hops

def fragments : JoinTree → List Fragment
  | hop fragments => fragments
  | meet left right => Fragment.join left.fragments right.fragments

theorem hops_ne_nil (t : JoinTree) : t.hops ≠ [] := by
  induction t with
  | hop fragments => exact List.cons_ne_nil _ _
  | meet left right some_left _ => exact List.append_ne_nil_of_left_ne_nil some_left _

theorem eraseDups_fragments (t : JoinTree) : t.fragments.eraseDups = Fragment.joinAll t.hops := by
  induction t with
  | hop fragments => rfl
  | meet left right left_eq right_eq =>
      calc (Fragment.join left.fragments right.fragments).eraseDups
        _ = Fragment.join left.fragments right.fragments :=
            Distinct.eraseDups_of_nodup (Distinct.nodup_eraseDups _)
        _ = Fragment.join left.fragments.eraseDups right.fragments.eraseDups := by
            rw [Fragment.eraseDups_join_left, Fragment.eraseDups_join_right]
        _ = Fragment.joinAll (left.hops ++ right.hops) := by
            rw [left_eq, right_eq, Fragment.joinAll_append left.hops_ne_nil right.hops_ne_nil]

end JoinTree

namespace Graph

/-- Joining is associative and does not see repetitions, so a chain may join its hops in any order
and drop repetitions at the end. -/
theorem matchChain_joins :
    (∀ a b c, Fragment.join (Fragment.join a b) c = Fragment.join a (Fragment.join b c)) ∧
      (∀ a b, Fragment.join a.eraseDups b = Fragment.join a b ∧
        Fragment.join a b.eraseDups = Fragment.join a b) ∧
      ∀ (g : Graph) (nodes edges : List Attributes) (allowed : List Allowed) (t : JoinTree),
        nodes.length = edges.length + 1 → edges ≠ [] → t.hops = g.hops nodes edges allowed →
          g.matchChain nodes edges allowed =
            .ok (if t.fragments = [] then none else some t.fragments.eraseDups) := by
  refine ⟨Fragment.join_join, fun a b => ?_, fun g nodes edges allowed t shape some_edge same => ?_⟩
  · exact ⟨Fragment.eraseDups_join_left a b, Fragment.eraseDups_join_right a b⟩
  · have none_iff : t.fragments.eraseDups = [] ↔ t.fragments = [] := by
      simp only [List.eq_nil_iff_forall_not_mem, List.mem_eraseDups]
    rw [matchChain_of_shape g shape some_edge, chain, ← same, ← t.eraseDups_fragments]
    simp only [List.isEmpty_iff, none_iff]

/-- Three hops through a loop and a link in both directions, of which the last two are joined first. -/
theorem matchChain_joins_right :
    ∃ g t, ofParts [⟨⟨1⟩, ∅⟩, ⟨⟨2⟩, ∅⟩] [⟨⟨1⟩, ⟨2⟩, ∅⟩, ⟨⟨1⟩, ⟨1⟩, ∅⟩, ⟨⟨2⟩, ⟨1⟩, ∅⟩] 2 = .ok g ∧
      t = JoinTree.meet (.hop [(⟨1⟩, ⟨1⟩), (⟨2⟩, ⟨1⟩)])
        (.meet (.hop [(⟨1⟩, ⟨2⟩), (⟨1⟩, ⟨1⟩)]) (.hop [(⟨1⟩, ⟨2⟩), (⟨1⟩, ⟨1⟩), (⟨2⟩, ⟨1⟩)])) ∧
      t.hops = g.hops [∅, ∅, ∅, ∅] [∅, ∅, ∅] [none, some [⟨1⟩]] ∧
      g.matchChain [∅, ∅, ∅, ∅] [∅, ∅, ∅] [none, some [⟨1⟩]] = .ok (some t.fragments.eraseDups) := by
  let t := JoinTree.meet (.hop [(⟨1⟩, ⟨1⟩), (⟨2⟩, ⟨1⟩)])
    (.meet (.hop [(⟨1⟩, ⟨2⟩), (⟨1⟩, ⟨1⟩)]) (.hop [(⟨1⟩, ⟨2⟩), (⟨1⟩, ⟨1⟩), (⟨2⟩, ⟨1⟩)]))
  obtain ⟨g, built, same⟩ : ∃ g, ofParts [⟨⟨1⟩, ∅⟩, ⟨⟨2⟩, ∅⟩]
      [⟨⟨1⟩, ⟨2⟩, ∅⟩, ⟨⟨1⟩, ⟨1⟩, ∅⟩, ⟨⟨2⟩, ⟨1⟩, ∅⟩] 2 = .ok g ∧
      t.hops = g.hops [∅, ∅, ∅, ∅] [∅, ∅, ∅] [none, some [⟨1⟩]] := ⟨_, rfl, rfl⟩
  have joined := matchChain_joins.2.2 g _ _ _ t rfl (List.cons_ne_nil _ _) same
  have some : t.fragments ≠ [] := by decide
  rw [if_neg some] at joined
  exact ⟨g, t, built, rfl, same, joined⟩

end Graph
end WordGraph
