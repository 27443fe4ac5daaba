import WordGraph.Graph.Adjacency
import WordGraph.Proofs.OrderedMap

/-!
An adjacency as a list of links. `Lists` says that the two tables agree with one list of pairs, the
order included; every operation changes that list in a plain way. Tables that list the same pairs
may still differ in the empty rows that removed links leave behind.
-/

namespace WordGraph.Adjacency

theorem successors_link (a : Adjacency) (source target id : NodeId) :
    (a.link source target).successors id =
      if source = id then addLast (a.successors id) target else a.successors id := by
  simp only [successors, link, OrderedMap.find?_insert]
  by_cases h : source = id
  · simp only [h, if_true, Option.getD_some]
  · simp only [h, if_false]

theorem predecessors_link (a : Adjacency) (source target id : NodeId) :
    (a.link source target).predecessors id =
      if target = id then addLast (a.predecessors id) source else a.predecessors id := by
  simp only [predecessors, link, OrderedMap.find?_insert]
  by_cases h : target = id
  · simp only [h, if_true, Option.getD_some]
  · simp only [h, if_false]

/-- Rewriting a row of a table by `f` rewrites what is read there, as an empty row is one that is
missing. -/
theorem getD_find?_modify (t : OrderedMap NodeId (List NodeId)) (k id : NodeId)
    (f : List NodeId → List NodeId) (hf : f [] = []) :
    ((t.modify k f).find? id).getD [] =
      if k = id then f ((t.find? id).getD []) else (t.find? id).getD [] := by
  rw [OrderedMap.find?_modify]
  by_cases h : k = id
  · subst h
    rw [if_pos rfl, if_pos rfl]
    cases t.find? k with
    | none => exact hf.symm
    | some row => rfl
  · rw [if_neg h, if_neg h]

theorem successors_unlink (a : Adjacency) (source target id : NodeId) :
    (a.unlink source target).successors id =
      if source = id then remove target (a.successors id) else a.successors id :=
  getD_find?_modify a.outgoing source id (remove target) rfl

theorem predecessors_unlink (a : Adjacency) (source target id : NodeId) :
    (a.unlink source target).predecessors id =
      if target = id then remove source (a.predecessors id) else a.predecessors id :=
  getD_find?_modify a.incoming target id (remove source) rfl

theorem remove_eq_self {x : NodeId} {xs : List NodeId} (absent : x ∉ xs) : remove x xs = xs := by
  refine List.filter_eq_self.2 fun y hy => ?_
  have other : y ≠ x := fun same => absent (same ▸ hy)
  exact decide_eq_true other

theorem remove_remove (x : NodeId) (xs : List NodeId) : remove x (remove x xs) = remove x xs := by
  simp only [remove, List.filter_filter, Bool.and_self]

theorem getD_find?_forget (gone : NodeId) (t : OrderedMap NodeId (List NodeId))
    (owners : List NodeId) (id : NodeId) :
    ((forget gone t owners).find? id).getD [] =
      if id ∈ owners then remove gone ((t.find? id).getD []) else (t.find? id).getD [] := by
  induction owners generalizing t with
  | nil => exact (if_neg List.not_mem_nil).symm
  | cons owner owners ih =>
      refine (ih (t.modify owner (remove gone))).trans ?_
      rw [getD_find?_modify _ _ _ _ rfl]
      by_cases here : id = owner
      · simp [here, remove_remove]
      · simp [here, Ne.symm here]

theorem getD_find?_erase (t : OrderedMap NodeId (List NodeId)) (gone id : NodeId) :
    ((t.erase gone).find? id).getD [] = if gone = id then [] else (t.find? id).getD [] := by
  rw [OrderedMap.find?_erase]
  split <;> rfl

theorem predecessors_detach (a : Adjacency) (gone id : NodeId) :
    (a.detach gone).predecessors id =
      if gone = id then []
      else if id ∈ a.successors gone then remove gone (a.predecessors id) else a.predecessors id := by
  rw [predecessors, detach, getD_find?_erase, getD_find?_forget, predecessors]

theorem successors_detach (a : Adjacency) (gone id : NodeId) :
    (a.detach gone).successors id =
      if gone = id then []
      else if id ∈ a.predecessors gone then remove gone (a.successors id) else a.successors id := by
  -- Whether the loop is still among the links that enter the node is no matter to other rows.
  have entering (other : gone ≠ id) : id ∈ (if gone ∈ a.successors gone
      then remove gone (a.predecessors gone) else a.predecessors gone) ↔ id ∈ a.predecessors gone := by
    split
    · simp [remove, Ne.symm other]
    · rfl
  rw [successors, detach, getD_find?_forget, getD_find?_forget, getD_find?_erase]
  by_cases same : gone = id
  · simp only [same, if_true, remove, List.filter_nil, ite_self]
  · rw [if_neg same, if_neg same]
    exact if_congr (entering same) rfl rfl

/-- Says that the adjacency holds exactly these links, and every row in their order. -/
structure Lists (a : Adjacency) (links : List Endpoints) : Prop where
  successors_eq : ∀ id, a.successors id = (links.filter (·.1 = id)).map Prod.snd
  predecessors_eq : ∀ id, a.predecessors id = (links.filter (·.2 = id)).map Prod.fst

theorem lists_empty : (∅ : Adjacency).Lists [] := ⟨fun _ => rfl, fun _ => rfl⟩

/-- A condition on links that a row can judge by its values may be put on the row. -/
theorem row_filter (links : List Endpoints) (key value : Endpoints → NodeId) {id : NodeId}
    {p : Endpoints → Bool} {q : NodeId → Bool} (h : ∀ e, key e = id → p e = q (value e)) :
    ((links.filter p).filter (key · = id)).map value =
      ((links.filter (key · = id)).map value).filter q := by
  rw [List.filter_map, List.filter_filter, List.filter_filter]
  congr 1
  refine List.filter_congr fun e _ => ?_
  by_cases he : key e = id
  · simp only [he, h e he, Function.comp_apply, decide_true, Bool.true_and, Bool.and_true]
  · simp only [he, decide_false, Bool.false_and, Bool.and_false]

namespace Lists

variable {a : Adjacency} {links : List Endpoints}

theorem mem_successors (h : a.Lists links) (source target : NodeId) :
    target ∈ a.successors source ↔ (source, target) ∈ links := by
  simp [h.successors_eq]

theorem mem_predecessors (h : a.Lists links) (source target : NodeId) :
    source ∈ a.predecessors target ↔ (source, target) ∈ links := by
  simp [h.predecessors_eq]

theorem linked_iff (h : a.Lists links) (source target : NodeId) :
    a.linked source target = true ↔ (source, target) ∈ links := by
  rw [linked, decide_eq_true_iff, h.mem_successors]

theorem link_known (h : a.Lists links) {source target : NodeId} (known : (source, target) ∈ links) :
    (a.link source target).Lists links where
  successors_eq id := by
    rw [successors_link, ← h.successors_eq]
    split
    · rename_i hs
      subst hs
      exact if_pos ((h.mem_successors source target).2 known)
    · rfl
  predecessors_eq id := by
    rw [predecessors_link, ← h.predecessors_eq]
    split
    · rename_i ht
      subst ht
      exact if_pos ((h.mem_predecessors source target).2 known)
    · rfl

theorem link_new (h : a.Lists links) {source target : NodeId} (new : (source, target) ∉ links) :
    (a.link source target).Lists (links ++ [(source, target)]) where
  successors_eq id := by
    rw [successors_link, h.successors_eq, List.filter_append, List.map_append]
    split
    · rename_i hs
      subst hs
      have absent := mt (h.mem_successors source target).1 new
      rw [← h.successors_eq, addLast, if_neg absent]
      simp
    · rename_i hs
      simp [hs]
  predecessors_eq id := by
    rw [predecessors_link, h.predecessors_eq, List.filter_append, List.map_append]
    split
    · rename_i ht
      subst ht
      have absent := mt (h.mem_predecessors source target).1 new
      rw [← h.predecessors_eq, addLast, if_neg absent]
      simp
    · rename_i ht
      simp [ht]

theorem unlink (h : a.Lists links) (source target : NodeId) :
    (a.unlink source target).Lists (links.filter (· ≠ (source, target))) where
  successors_eq id := by
    rw [successors_unlink, h.successors_eq]
    split
    · rename_i hs
      refine (row_filter links Prod.fst Prod.snd fun e he => ?_).symm
      simp [Prod.ext_iff, he, hs]
    · rename_i hs
      rw [row_filter links Prod.fst Prod.snd fun e he => ?_, List.filter_true]
      simp [Prod.ext_iff, he, Ne.symm hs]
  predecessors_eq id := by
    rw [predecessors_unlink, h.predecessors_eq]
    split
    · rename_i ht
      refine (row_filter links Prod.snd Prod.fst fun e he => ?_).symm
      simp [Prod.ext_iff, he, ht]
    · rename_i ht
      rw [row_filter links Prod.snd Prod.fst fun e he => ?_, List.filter_true]
      simp [Prod.ext_iff, he, Ne.symm ht]

/-- Rows that do not list a node need not be rewritten when it goes. -/
theorem successors_detach (h : a.Lists links) (gone id : NodeId) :
    (a.detach gone).successors id = if gone = id then [] else remove gone (a.successors id) := by
  rw [Adjacency.successors_detach]
  refine if_congr Iff.rfl rfl (ite_eq_left_iff.2 fun unlisted => (remove_eq_self ?_).symm)
  exact fun listed => unlisted ((h.mem_predecessors id gone).2 ((h.mem_successors id gone).1 listed))

theorem predecessors_detach (h : a.Lists links) (gone id : NodeId) :
    (a.detach gone).predecessors id = if gone = id then [] else remove gone (a.predecessors id) := by
  rw [Adjacency.predecessors_detach]
  refine if_congr Iff.rfl rfl (ite_eq_left_iff.2 fun unlisted => (remove_eq_self ?_).symm)
  exact fun listed => unlisted ((h.mem_successors gone id).2 ((h.mem_predecessors gone id).1 listed))

theorem detach (h : a.Lists links) (gone : NodeId) :
    (a.detach gone).Lists (links.filter fun e => e.1 ≠ gone && e.2 ≠ gone) where
  successors_eq id := by
    rw [h.successors_detach, h.successors_eq]
    split
    · rename_i hg
      rw [row_filter links Prod.fst Prod.snd fun e he => ?_, List.filter_false]
      simp [he, hg]
    · rename_i hg
      refine (row_filter links Prod.fst Prod.snd fun e he => ?_).symm
      simp [he, Ne.symm hg]
  predecessors_eq id := by
    rw [h.predecessors_detach, h.predecessors_eq]
    split
    · rename_i hg
      rw [row_filter links Prod.snd Prod.fst fun e he => ?_, List.filter_false]
      simp [he, hg]
    · rename_i hg
      refine (row_filter links Prod.snd Prod.fst fun e he => ?_).symm
      simp [he, Ne.symm hg]

theorem mem_incident (h : a.Lists links) (id : NodeId) (e : Endpoints) :
    e ∈ a.incident id ↔ e ∈ links ∧ (e.1 = id ∨ e.2 = id) := by
  obtain ⟨source, target⟩ := e
  simp only [incident, List.mem_append, List.mem_map, List.mem_filter, Prod.mk.injEq,
    decide_eq_true_eq]
  constructor
  · intro listed
    rcases listed with ⟨x, hx, rfl, rfl⟩ | ⟨x, ⟨hx, _⟩, rfl, rfl⟩
    · exact ⟨(h.mem_successors _ _).1 hx, .inl rfl⟩
    · exact ⟨(h.mem_predecessors _ _).1 hx, .inr rfl⟩
  · intro ⟨he, hs⟩
    by_cases hs' : source = id
    · subst hs'
      exact .inl ⟨target, (h.mem_successors _ _).2 he, rfl, rfl⟩
    · obtain rfl : target = id := hs.resolve_left hs'
      exact .inr ⟨source, ⟨(h.mem_predecessors _ _).2 he, hs'⟩, rfl, rfl⟩

/-- The links of a node, each of them once: a loop is one that leaves it. -/
theorem incident_eq_filter (h : a.Lists links) (id : NodeId) :
    a.incident id = links.filter (·.1 = id) ++ links.filter fun e => e.2 = id && e.1 ≠ id := by
  have leaving : (a.successors id).map (id, ·) = links.filter (·.1 = id) := by
    rw [h.successors_eq, List.map_map]
    refine (List.map_congr_left fun e he => ?_).trans (List.map_id _)
    have starts : e.1 = id := by simpa using (List.mem_filter.1 he).2
    exact Prod.ext starts.symm rfl
  have entering : ((a.predecessors id).filter (· ≠ id)).map (·, id) =
      links.filter fun e => e.2 = id && e.1 ≠ id := by
    rw [h.predecessors_eq, List.filter_map, List.map_map, List.filter_filter]
    refine (List.map_congr_left fun e he => ?_).trans (List.map_id _) |>.trans ?_
    · have ends : e.1 ≠ id ∧ e.2 = id := by simpa using (List.mem_filter.1 he).2
      exact Prod.ext rfl ends.2.symm
    · simp only [Function.comp_def, Bool.and_comm]
  rw [incident, leaving, entering]

theorem incident_nodup (h : a.Lists links) (distinct : links.Nodup) (id : NodeId) :
    (a.incident id).Nodup := by
  rw [h.incident_eq_filter]
  refine List.nodup_append.2 ⟨distinct.filter _, distinct.filter _, fun e he f hf same => ?_⟩
  have leaves : e.1 = id := by simpa using (List.mem_filter.1 he).2
  have enters : f.2 = id ∧ f.1 ≠ id := by simpa using (List.mem_filter.1 hf).2
  exact enters.2 (same ▸ leaves)

end Lists
end WordGraph.Adjacency
