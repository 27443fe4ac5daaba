import WordGraph.Graph.Chain
import WordGraph.Proofs.Distinct
import WordGraph.Proofs.Graph.Select

/-!
Matching of chains against the plain enumeration of walks. The enumeration chooses an edge from every
hop, earlier hops outermost, and keeps the choices whose edges meet; joining hop by hop and dropping
repeated pairs after every join gives the ends of those walks, each pair where it first occurs.
-/

namespace WordGraph

/-- Every choice of one element from each list; the choice from the first list changes slowest. -/
def choices {α : Type} : List (List α) → List (List α)
  | [] => [[]]
  | xs :: rest => xs.flatMap fun x => (choices rest).map (x :: ·)

theorem mem_choices {α : Type} (c : List α) (ls : List (List α)) :
    c ∈ choices ls ↔ List.Forall₂ (· ∈ ·) c ls := by
  induction ls generalizing c with
  | nil => simp [choices]
  | cons xs rest ih =>
      simp only [choices, List.mem_flatMap, List.mem_map, ih, List.forall₂_cons_right_iff]
      constructor
      · intro ⟨x, hx, c, hc, same⟩
        exact ⟨x, c, hx, hc, same.symm⟩
      · intro ⟨x, c, hx, hc, same⟩
        exact ⟨x, hx, c, hc, same.symm⟩

theorem choices_nodup {α : Type} (ls : List (List α)) (h : ∀ l ∈ ls, l.Nodup) :
    (choices ls).Nodup := by
  induction ls with
  | nil => simp [choices]
  | cons xs rest ih =>
      have restNodup := ih fun l hl => h l (List.mem_cons_of_mem xs hl)
      rw [choices, List.nodup_flatMap]
      refine ⟨fun x _ => restNodup.map (List.cons_injective), ?_⟩
      refine (h xs (List.mem_cons_self ..)).imp fun {x y} different c hx hy => ?_
      obtain ⟨c, _, rfl⟩ := List.mem_map.1 hx
      obtain ⟨d, _, heq⟩ := List.mem_map.1 hy
      exact different (List.cons.inj heq).1.symm

namespace Fragment

/-- The stretches that two lists of stretches make where they meet, repeated ones included. -/
def spread (left right : List Fragment) : List Fragment :=
  left.flatMap fun l => (right.filter (·.1 = l.2)).map fun r => (l.1, r.2)

theorem join_eraseDups (left right : List Fragment) :
    join left.eraseDups right = (spread left right).eraseDups :=
  Distinct.eraseDups_flatMap_eraseDups left _

theorem foldl_join (hops : List (List Fragment)) (left : List Fragment) :
    hops.foldl join left.eraseDups = (hops.foldl spread left).eraseDups := by
  induction hops generalizing left with
  | nil => rfl
  | cons hop hops ih => rw [List.foldl_cons, List.foldl_cons, join_eraseDups, ih]

/-- The stretch from the start of the first to the end of the last, if each meets the next. -/
def span? (fs : List Fragment) : Option Fragment :=
  if fs.IsChain (·.2 = ·.1) then fs.head?.bind fun f => fs.getLast?.map fun l => (f.1, l.2)
  else none

theorem span?_cons_cons (x y : Fragment) (fs : List Fragment) :
    span? (x :: y :: fs) = if y.1 = x.2 then span? ((x.1, y.2) :: fs) else none := by
  by_cases h : y.1 = x.2
  · cases fs with
    | nil => simp [span?, h]
    | cons z fs => simp [span?, List.isChain_cons_cons, List.getLast?_cons_cons, h]
  · simp [span?, List.isChain_cons_cons, h, Ne.symm h]

theorem foldl_spread (hops : List (List Fragment)) (left : List Fragment) :
    hops.foldl spread left = (choices (left :: hops)).filterMap span? := by
  induction hops generalizing left with
  | nil =>
      have single (x : Fragment) : span? [x] = some x := by simp [span?]
      simp [choices, List.filterMap_flatMap, single]
  | cons hop hops ih =>
      have merge (x y : Fragment) :
          (choices hops).filterMap (fun c => span? (x :: y :: c)) =
            if y.1 = x.2 then (choices hops).filterMap (fun c => span? ((x.1, y.2) :: c))
            else [] := by
        split <;> rename_i h <;> simp [span?_cons_cons, h]
      rw [List.foldl_cons, ih]
      simp only [choices, spread, List.filterMap_flatMap, List.flatMap_assoc, List.filterMap_map,
        List.flatMap_map, List.map_flatMap, List.map_map, Function.comp_def, merge]
      refine List.flatMap_congr fun x _ => ?_
      induction hop with
      | nil => rfl
      | cons y hop ih => by_cases h : y.1 = x.2 <;> simp [h, ih]

/-- Joining hop after hop gives the ends of the choices that hang together. -/
theorem joinAll_eq (hops : List (List Fragment)) :
    joinAll hops = ((choices hops).filterMap span?).eraseDups := by
  cases hops with
  | nil => simp [joinAll, choices, span?]
  | cons hop hops => rw [joinAll, foldl_join, foldl_spread]

end Fragment

/-- Filters that alternate are not refused. -/
theorem Graph.matchChain_of_shape (g : Graph) {nodes edges : List Attributes}
    (shape : nodes.length = edges.length + 1) (some_edge : edges ≠ []) (allowed : List Allowed) :
    g.matchChain nodes edges allowed = .ok (g.chain nodes edges allowed) := by
  rw [matchChain, if_pos]
  simp [shape, some_edge]

end WordGraph
