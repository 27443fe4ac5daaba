import Mathlib.Data.List.Perm.Subperm
import WordGraph.Graph.Path
import WordGraph.Proofs.OrderedMap

/-!
What a search notes on its way. The parents of the nodes met are never changed, so the way back from a
node stays the one by which it was met, and it ends at the source.
-/

namespace WordGraph.Graph

/-- A node that a search met and the nodes before it on the way to it, the nearest first. -/
structure Trail where
  node : NodeId
  earlier : List NodeId

namespace Trail

def path (t : Trail) : List NodeId := (t.node :: t.earlier).reverse

def extend (t : Trail) (next : NodeId) : Trail := ⟨next, t.node :: t.earlier⟩

@[simp] theorem path_extend (t : Trail) (next : NodeId) :
    (t.extend next).path = t.path ++ [next] := by
  rw [path, extend, List.reverse_cons, path]

@[simp] theorem length_path_extend (t : Trail) (next : NodeId) :
    (t.extend next).path.length = t.path.length + 1 := by
  rw [path_extend, List.length_append, List.length_singleton]

@[simp] theorem node_extend (t : Trail) (next : NodeId) : (t.extend next).node = next := rfl

theorem map_node_extend (t : Trail) (ids : List NodeId) : (ids.map t.extend).map node = ids := by
  rw [List.map_map]
  exact List.map_id ids

end Trail

namespace Survey

variable {s : Survey} {source target next : NodeId} {ids ns : List NodeId}

section Meeting

/-- Meets these nodes from `current`, all of them. -/
def meetThese (s : Survey) (current : NodeId) (ids : List NodeId) : Survey :=
  ids.foldl (fun s next => s.meet current next) s

theorem met_meetThese (s : Survey) (current : NodeId) (ids : List NodeId) :
    (s.meetThese current ids).met = s.met ++ ids := by
  induction ids generalizing s with
  | nil => exact (List.append_nil _).symm
  | cons next ids ih => exact (ih (s.meet current next)).trans (List.append_assoc ..)

theorem queue_meetThese (s : Survey) (current : NodeId) (ids : List NodeId) :
    (s.meetThese current ids).queue = s.queue ++ ids := by
  induction ids generalizing s with
  | nil => exact (List.append_nil _).symm
  | cons next ids ih => exact (ih (s.meet current next)).trans (List.append_assoc ..)

theorem find?_meetThese (s : Survey) (current : NodeId) (ids : List NodeId) (v : NodeId) :
    (s.meetThese current ids).parent.find? v =
      if v ∈ ids then some current else s.parent.find? v := by
  induction ids generalizing s with
  | nil => exact (if_neg List.not_mem_nil).symm
  | cons next ids ih =>
      refine (ih (s.meet current next)).trans ?_
      rw [meet, OrderedMap.find?_insert]
      by_cases later : v ∈ ids
      · simp [later]
      · by_cases here : v = next
        · simp [here]
        · simp [later, here, Ne.symm here]

/-- To have met a node is no matter for the others. -/
theorem fresh_meet (current : NodeId) (other : next ∉ ns) :
    ns.filter (· ∉ (s.meet current next).met) = ns.filter (· ∉ s.met) := by
  refine List.filter_congr fun n hn => decide_eq_decide.2 (not_congr ?_)
  have different : n ≠ next := fun same => other (same ▸ hn)
  rw [meet, List.mem_append, List.mem_singleton]
  exact or_iff_left different

theorem meetAll_missed (current : NodeId) (distinct : ns.Nodup)
    (missed : target ∉ ns.filter (· ∉ s.met)) :
    s.meetAll target current ns = (false, s.meetThese current (ns.filter (· ∉ s.met))) := by
  induction ns generalizing s with
  | nil => rfl
  | cons next rest ih =>
      obtain ⟨other, distinct⟩ := List.nodup_cons.1 distinct
      rw [meetAll]
      by_cases known : next ∈ s.met
      · rw [List.filter_cons_of_neg (by simpa using known)] at missed ⊢
        rw [if_pos known, ih distinct missed]
      · rw [List.filter_cons_of_pos (by simpa using known), List.mem_cons, not_or] at missed
        rw [if_neg known, if_neg (Ne.symm missed.1), List.filter_cons_of_pos (by simpa using known),
          ih distinct (fresh_meet (s := s) current other ▸ missed.2),
          fresh_meet current other]
        rfl

theorem meetAll_found (current : NodeId) (distinct : ns.Nodup)
    (found : target ∈ ns.filter (· ∉ s.met)) :
    ∃ ids, s.meetAll target current ns = (true, s.meetThese current ids) ∧ target ∈ ids ∧
      ∀ id ∈ ids, id ∉ s.met := by
  induction ns generalizing s with
  | nil => cases found
  | cons next rest ih =>
      obtain ⟨other, distinct⟩ := List.nodup_cons.1 distinct
      rw [meetAll]
      by_cases known : next ∈ s.met
      · rw [List.filter_cons_of_neg (by simpa using known)] at found
        rw [if_pos known]
        exact ih distinct found
      · rw [List.filter_cons_of_pos (by simpa using known), List.mem_cons] at found
        rw [if_neg known]
        by_cases here : next = target
        · rw [if_pos here]
          exact ⟨[next], rfl, here ▸ List.mem_singleton.2 rfl, by simpa using known⟩
        · rw [if_neg here]
          have later := found.resolve_left (Ne.symm here)
          obtain ⟨ids, result, mem, fresh⟩ := ih distinct (fresh_meet (s := s) current other ▸ later)
          refine ⟨next :: ids, result, List.mem_cons_of_mem _ mem, fun id hid => ?_⟩
          cases List.mem_cons.1 hid with
          | inl first => exact first ▸ known
          | inr rest => exact fun old => fresh id rest (List.mem_append_left _ old)

theorem met_of_meetAll {current : NodeId} {found : Survey}
    (met : s.meetAll target current ns = (true, found)) : target ∈ found.met := by
  induction ns generalizing s with
  | nil => cases met
  | cons next rest ih =>
      rw [meetAll] at met
      split at met
      · exact ih met
      · split at met
        · rename_i here
          cases met
          exact here ▸ List.mem_concat_self
        · exact ih met

end Meeting

section Tracing

/-- Says that the parents lead back over a trail, from its node to the source. -/
inductive Traced (parent : OrderedMap NodeId NodeId) (source : NodeId) : Trail → Prop where
  | start : Traced parent source ⟨source, []⟩
  | step {t : Trail} {next : NodeId} (before : Traced parent source t)
      (noted : parent.find? next = some t.node) (later : next ≠ source) :
      Traced parent source (t.extend next)

namespace Traced

variable {parent more : OrderedMap NodeId NodeId} {t : Trail}

theorem mono (h : Traced parent source t)
    (kept : ∀ v u, parent.find? v = some u → more.find? v = some u) : Traced more source t := by
  induction h with
  | start => exact .start
  | step _ noted later ih => exact ih.step (kept _ _ noted) later

theorem back_eq (h : Traced parent source t) {rounds : Nat} (enough : t.earlier.length ≤ rounds) :
    back source parent rounds t.node = t.node :: t.earlier := by
  induction h generalizing rounds with
  | start =>
      cases rounds with
      | zero => rfl
      | succ rounds => exact if_pos rfl
  | step _ noted later ih =>
      cases rounds with
      | zero => cases enough
      | succ rounds =>
          rw [Trail.node_extend, back, if_neg later, noted]
          exact congrArg (List.cons _) (ih (Nat.le_of_succ_le_succ enough))

/-- Each node of a trail but the source was met from the one behind it. -/
theorem isChain (h : Traced parent source t) :
    (t.node :: t.earlier).IsChain fun v u => parent.find? v = some u := by
  induction h with
  | start => exact .singleton source
  | step _ noted _ ih => exact .cons_cons noted ih

theorem subset_keys (h : Traced parent source t) : t.path ⊆ source :: parent.keys := by
  induction h with
  | start => exact List.cons_subset_cons _ (List.nil_subset _)
  | step _ noted _ ih =>
      rw [Trail.path_extend]
      refine List.append_subset.2 ⟨ih, fun v hv => ?_⟩
      obtain rfl := List.mem_singleton.1 hv
      exact List.mem_cons_of_mem _ ((OrderedMap.mem_keys_iff ..).2 ⟨_, noted⟩)

end Traced

/-- The way back along the parents ends at the source, not for want of rounds or of a parent. -/
theorem path_eq {t : Trail} (h : Traced s.parent source t) (nodup : t.path.Nodup) :
    s.path source t.node = t.path := by
  have bound := (List.subperm_of_subset nodup h.subset_keys).length_le
  have enough : t.earlier.length ≤ s.parent.size := by
    rw [Trail.path, List.length_reverse, List.length_cons, List.length_cons, OrderedMap.keys,
      List.length_map] at bound
    exact Nat.le_of_succ_le_succ bound
  rw [path, h.back_eq enough, Trail.path]

end Tracing

section Following

/-- Says that a survey has these trails in its queue, and the way back along each of them. -/
structure Follows (s : Survey) (source : NodeId) (trails : List Trail) : Prop where
  queue_eq : s.queue = trails.map Trail.node
  traced : ∀ t ∈ trails, Traced s.parent source t
  source_met : source ∈ s.met
  parents_met : ∀ v u, s.parent.find? v = some u → v ∈ s.met

theorem follows_start (source : NodeId) : (start source).Follows source [⟨source, []⟩] where
  queue_eq := rfl
  traced t ht := List.mem_singleton.1 ht ▸ .start
  source_met := List.mem_singleton.2 rfl
  parents_met v u noted := by
    rw [start, OrderedMap.find?_empty] at noted
    cases noted

namespace Follows

variable {t : Trail} {trails : List Trail}

theorem pop?_nil (f : s.Follows source []) : s.pop? = none := by
  rw [pop?, f.queue_eq]
  rfl

theorem pop?_cons (f : s.Follows source (t :: trails)) :
    ∃ rest, s.pop? = some (t.node, rest) ∧ rest.met = s.met ∧ rest.Follows source trails ∧
      Traced rest.parent source t := by
  refine ⟨{ s with queue := trails.map Trail.node }, ?_, rfl, ?_, f.traced t (List.mem_cons_self ..)⟩
  · rw [pop?, f.queue_eq]
    rfl
  · exact ⟨rfl, fun u hu => f.traced u (List.mem_cons_of_mem _ hu), f.source_met, f.parents_met⟩

/-- No parent is overwritten, so every trail stays as it is. -/
theorem traced_meetThese (f : s.Follows source trails) (current : NodeId)
    (fresh : ∀ id ∈ ids, id ∉ s.met) (traced : Traced s.parent source t) :
    Traced (s.meetThese current ids).parent source t := by
  refine traced.mono fun v u noted => ?_
  rw [find?_meetThese, if_neg fun new => fresh v new (f.parents_met v u noted), noted]

/-- The nodes that are met from the end of a trail lead it on. -/
theorem traced_extend (f : s.Follows source trails) (fresh : ∀ id ∈ ids, id ∉ s.met)
    (traced : Traced s.parent source t) {v : NodeId} (hv : v ∈ ids) :
    Traced (s.meetThese t.node ids).parent source (t.extend v) := by
  refine (f.traced_meetThese t.node fresh traced).step ?_ fun same => ?_
  · rw [find?_meetThese, if_pos hv]
  · exact fresh v hv (same ▸ f.source_met)

theorem meetThese (f : s.Follows source trails) (fresh : ∀ id ∈ ids, id ∉ s.met)
    (traced : Traced s.parent source t) :
    (s.meetThese t.node ids).Follows source (trails ++ ids.map t.extend) where
  queue_eq := by rw [queue_meetThese, f.queue_eq, List.map_append, Trail.map_node_extend]
  traced u hu := by
    cases List.mem_append.1 hu with
    | inl old => exact f.traced_meetThese t.node fresh (f.traced u old)
    | inr new =>
        obtain ⟨v, hv, rfl⟩ := List.mem_map.1 new
        exact f.traced_extend fresh traced hv
  source_met := by
    rw [met_meetThese]
    exact List.mem_append_left _ f.source_met
  parents_met v u noted := by
    rw [met_meetThese, List.mem_append]
    rw [find?_meetThese] at noted
    split at noted
    · rename_i new
      exact .inr new
    · exact .inl (f.parents_met v u noted)

end Follows
end Following
end Survey
end WordGraph.Graph
