import Mathlib.Data.List.Nodup
import WordGraph.Graph.Select
import WordGraph.Proofs.Graph.Run

/-!
What a selection of edges selects. In a coherent graph the search along the adjacency gives, source
by source, the edges of the table that pass, so it finds exactly those and each of them once, as a scan
of the table does.
-/

namespace WordGraph.Graph

theorem nodes_nodup (g : Graph) : g.nodes.Nodup :=
  List.Nodup.of_map Node.id (map_id_nodes g ▸ g.nodeTable.keys_nodup)

theorem edges_nodup (g : Graph) : g.edges.Nodup :=
  List.Nodup.of_map Edge.endpoints (map_endpoints_edges g ▸ g.edgeTable.keys_nodup)

theorem eq_of_endpoints {g : Graph} {e f : Edge} (he : e ∈ g.edges) (hf : f ∈ g.edges)
    (h : e.endpoints = f.endpoints) : e = f :=
  List.inj_on_of_nodup_map (map_endpoints_edges g ▸ g.edgeTable.keys_nodup) he hf h

theorem eq_of_id {g : Graph} {n m : Node} (hn : n ∈ g.nodes) (hm : m ∈ g.nodes)
    (h : n.id = m.id) : n = m :=
  List.inj_on_of_nodup_map (map_id_nodes g ▸ g.nodeTable.keys_nodup) hn hm h

theorem edge?_of_mem {g : Graph} {e : Edge} (h : e ∈ g.edges) :
    g.edge? e.source e.target = some e := (edge?_eq_some_iff ..).2 ⟨h, rfl⟩

theorem exists_node? {g : Graph} {id : NodeId} (stored : id ∈ g.nodeTable.keys) :
    ∃ n, g.node? id = some n ∧ n.id = id := by
  obtain ⟨n, found⟩ := Option.ne_none_iff_exists'.1
    (mt (node?_eq_none_iff g id).1 (not_not_intro stored))
  exact ⟨n, found, ((node?_eq_some_iff ..).1 found).2⟩

theorem nodeHas_iff (g : Graph) (filter : Attributes) (id : NodeId) :
    g.nodeHas filter id = true ↔ ∃ n ∈ g.nodesWith filter, n.id = id := by
  simp only [nodeHas, Option.any_eq_true, node?_eq_some_iff, nodesWith, List.mem_filter]
  constructor
  · intro ⟨n, ⟨hn, hid⟩, has⟩
    exact ⟨n, ⟨hn, has⟩, hid⟩
  · intro ⟨n, ⟨hn, has⟩, hid⟩
    exact ⟨n, ⟨hn, hid⟩, has⟩

/-- Looking up the edges to the neighbours of a node gives the edges that leave it. -/
theorem Coherent.edges_from {g : Graph} (h : g.Coherent) (id : NodeId) (ends : NodeId → Bool)
    (related : Edge → Bool) :
    (((g.neighbors id).filter ends).filterMap fun t => (g.edge? id t).filter related) =
      g.edges.filter fun e => e.source = id && (ends e.target && related e) := by
  rw [h.neighbors_eq, List.filter_map, List.filter_filter, List.filterMap_map,
    ← List.filterMap_eq_filter, ← List.filterMap_eq_filter, List.filterMap_filterMap]
  refine List.filterMap_congr fun e he => ?_
  by_cases hs : e.source = id
  · have found : g.edge? id e.target = some e := hs ▸ edge?_of_mem he
    cases ht : ends e.target <;> cases hr : related e <;>
      simp [Option.guard, hs, ht, hr, found, Option.filter]
  · simp [Option.guard, hs]

/-- With a filter on the source, the selected edges stand source by source in the order of the nodes,
and for each source in the order of the table of edges. -/
theorem Coherent.edgesBetween_some {g : Graph} (h : g.Coherent) (filter : Attributes)
    (target relation : Option Attributes) :
    g.edgesBetween (some filter) target relation =
      (g.nodesWith filter).flatMap fun n => g.edges.filter fun e =>
        e.source = n.id && (target.all (g.nodeHas · e.target) && relation.all e.attributes.includes) := by
  simp only [edgesBetween]
  exact List.flatMap_congr fun n _ => h.edges_from n.id _ fun e => relation.all e.attributes.includes

theorem Coherent.mem_edgesBetween {g : Graph} (h : g.Coherent)
    (source target relation : Option Attributes) (e : Edge) :
    e ∈ g.edgesBetween source target relation ↔
      e ∈ g.edges ∧ source.all (g.nodeHas · e.source) = true ∧
        target.all (g.nodeHas · e.target) = true ∧ relation.all e.attributes.includes = true := by
  cases source with
  | none => simp [edgesBetween]
  | some filter =>
      simp only [h.edgesBetween_some, List.mem_flatMap, List.mem_filter, Bool.and_eq_true,
        decide_eq_true_eq, Option.all_some, nodeHas_iff g filter]
      constructor
      · intro ⟨n, hn, he, hs, rest⟩
        exact ⟨he, ⟨n, hn, hs.symm⟩, rest⟩
      · intro ⟨he, ⟨n, hn, hs⟩, rest⟩
        exact ⟨n, hn, he, hs.symm, rest⟩

theorem Coherent.edgesBetween_nodup {g : Graph} (h : g.Coherent)
    (source target relation : Option Attributes) :
    (g.edgesBetween source target relation).Nodup := by
  cases source with
  | none => exact g.edges_nodup.filter _
  | some filter =>
      rw [h.edgesBetween_some, List.nodup_flatMap]
      refine ⟨fun n _ => g.edges_nodup.filter _, ?_⟩
      refine (g.nodes_nodup.filter _).imp_of_mem fun {n m} hn hm different e he he' => ?_
      simp only [List.mem_filter, Bool.and_eq_true, decide_eq_true_eq] at he he'
      have same : n.id = m.id := he.2.1.symm.trans he'.2.1
      exact different (eq_of_id (List.mem_of_mem_filter hn) (List.mem_of_mem_filter hm) same)

/-- Says of an edge that its ends and its attributes have what the filters ask for that are given. -/
structure Passes (g : Graph) (source target relation : Option Attributes) (e : Edge) : Prop where
  source_has : ∀ f, source = some f →
    ∃ n ∈ g.nodes, n.id = e.source ∧ n.attributes.includes f = true
  target_has : ∀ f, target = some f →
    ∃ n ∈ g.nodes, n.id = e.target ∧ n.attributes.includes f = true
  related : ∀ f, relation = some f → e.attributes.includes f = true

/-- Says of a list of edges that it is what a plain scan of the table finds: the edges that pass, each of
them once. Without a filter on the source they stand in the order of the table, with one they stand
source by source, the sources in the order of the nodes and the edges of each in that of the table. -/
structure Scans (g : Graph) (source target relation : Option Attributes) (es : List Edge) : Prop where
  nodup : es.Nodup
  mem_iff : ∀ e, e ∈ es ↔ e ∈ g.edges ∧ g.Passes source target relation e
  by_table : source = none → es = g.edges.filter (· ∈ es)
  by_source : ∀ f, source = some f →
    es = g.nodes.flatMap fun n => g.edges.filter fun e => e.source = n.id && e ∈ es

theorem passes_iff (g : Graph) (source target relation : Option Attributes) (e : Edge) :
    g.Passes source target relation e ↔
      source.all (g.nodeHas · e.source) = true ∧ target.all (g.nodeHas · e.target) = true ∧
        relation.all e.attributes.includes = true := by
  have has (f : Attributes) (id : NodeId) : g.nodeHas f id = true ↔
      ∃ n ∈ g.nodes, n.id = id ∧ n.attributes.includes f = true := by
    rw [nodeHas_iff]
    simp only [nodesWith, List.mem_filter, and_assoc, and_comm]
  simp only [Option.all_eq_true, has]
  exact ⟨fun p => ⟨p.source_has, p.target_has, p.related⟩, fun ⟨s, t, r⟩ => ⟨s, t, r⟩⟩

/-- The nodes behind which no edges stand need not be left out. -/
theorem flatMap_filter_of_empty {α β : Type} (xs : List α) (p : α → Bool) (f : α → List β)
    (empty : ∀ x ∈ xs, p x = false → f x = []) : (xs.filter p).flatMap f = xs.flatMap f := by
  induction xs with
  | nil => rfl
  | cons x xs ih =>
      have rest := ih fun y hy => empty y (List.mem_cons_of_mem _ hy)
      cases hp : p x with
      | true => rw [List.filter_cons_of_pos hp, List.flatMap_cons, List.flatMap_cons, rest]
      | false =>
          rw [List.filter_cons_of_neg (by simp [hp]), rest, List.flatMap_cons,
            empty x (List.mem_cons_self ..) hp, List.nil_append]

theorem Coherent.scans {g : Graph} (h : g.Coherent) (source target relation : Option Attributes) :
    g.Scans source target relation (g.edgesBetween source target relation) where
  nodup := h.edgesBetween_nodup source target relation
  mem_iff e := by rw [h.mem_edgesBetween, passes_iff]
  by_table none := by
    subst none
    refine List.filter_congr fun e he => ?_
    rw [Bool.eq_iff_iff, decide_eq_true_eq, h.mem_edgesBetween]
    simp [he]
  by_source f given := by
    subst given
    -- An edge that is found starts at a node that has what the filter asks for.
    have here (n : Node) (hn : n ∈ g.nodes) (e : Edge) (he : e ∈ g.edges) :
        (e.source = n.id ∧ e ∈ g.edgesBetween (some f) target relation) ↔
          n.attributes.includes f = true ∧ e.source = n.id ∧
            target.all (g.nodeHas · e.target) = true ∧ relation.all e.attributes.includes = true := by
      rw [h.mem_edgesBetween, Option.all_some, nodeHas_iff]
      constructor
      · intro ⟨starts, _, ⟨m, hm, same⟩, rest⟩
        obtain ⟨stored, has⟩ := List.mem_filter.1 hm
        exact ⟨eq_of_id stored hn (same.trans starts) ▸ has, starts, rest⟩
      · intro ⟨has, starts, rest⟩
        exact ⟨starts, he, ⟨n, List.mem_filter.2 ⟨hn, has⟩, starts.symm⟩, rest⟩
    conv => lhs; rw [h.edgesBetween_some]
    have row (n : Node) (hn : n ∈ g.nodes) (has : n.attributes.includes f = true) :
        (g.edges.filter fun e => e.source = n.id && (target.all (g.nodeHas · e.target) &&
          relation.all e.attributes.includes)) =
        g.edges.filter fun e => e.source = n.id && e ∈ g.edgesBetween (some f) target relation := by
      refine List.filter_congr fun e he => ?_
      rw [Bool.eq_iff_iff]
      simp only [Bool.and_eq_true, decide_eq_true_eq, here n hn e he, has, true_and]
    rw [nodesWith, List.flatMap_congr fun n hn =>
      row n (List.mem_filter.1 hn).1 (List.mem_filter.1 hn).2]
    refine flatMap_filter_of_empty _ _ _ fun n hn lacks => ?_
    refine List.filter_eq_nil_iff.2 fun e he => ?_
    simp only [Bool.and_eq_true, decide_eq_true_eq, here n hn e he, lacks]
    simp

/-- A selection that asks for edges is a search by all of its filters, whichever are given. -/
theorem select_eq_edges_iff (g : Graph) (source target relation : Option Attributes)
    (es : List Edge) :
    g.select source target relation = some (.edges es) ↔
      (relation.isSome ∨ source.isSome ∧ target.isSome) ∧
        es = g.edgesBetween source target relation := by
  cases source <;> cases target <;> cases relation <;>
    simp [select, edgesWith, edgesBetween, eq_comm]

/-- An empty filter on the source asks for nothing. -/
theorem Coherent.passes_isEmpty_iff {g : Graph} (h : g.Coherent) {f : Attributes}
    (empty : f.isEmpty = true) (target relation : Option Attributes) {e : Edge} (he : e ∈ g.edges) :
    g.Passes (some f) target relation e ↔ g.Passes none target relation e := by
  constructor
  · intro p
    exact ⟨nofun, p.target_has, p.related⟩
  · intro p
    refine ⟨fun f' given => ?_, p.target_has, p.related⟩
    obtain rfl := Option.some.inj given
    have stored := h.source_mem e he
    rw [← map_id_nodes] at stored
    obtain ⟨n, hn, same⟩ := List.mem_map.1 stored
    have nothing : f.toList = [] := List.isEmpty_iff.1 empty
    exact ⟨n, hn, same, by rw [Attributes.includes, nothing, List.all_nil]⟩

/-- In every graph that operations can make, a selection that asks for edges finds what a plain scan of
the table of edges finds, though with a filter on the source it goes along the adjacency; an empty
filter there changes no more than the order. -/
theorem select_scans {g : Graph} (reached : g.Reached) (source target relation : Option Attributes) :
    ((∃ es, g.select source target relation = some (.edges es)) ↔
      relation.isSome = true ∨ source.isSome = true ∧ target.isSome = true) ∧
    (∀ es, g.select source target relation = some (.edges es) →
      g.Scans source target relation es) ∧
    ∀ f es fs, f.isEmpty = true → g.select none target relation = some (.edges es) →
      g.select (some f) target relation = some (.edges fs) → fs.Perm es := by
  have coherent := reached.sound.coherent
  have scanned (source : Option Attributes) (es : List Edge)
      (found : g.select source target relation = some (.edges es)) :
      g.Scans source target relation es := by
    obtain ⟨_, rfl⟩ := (select_eq_edges_iff ..).1 found
    exact coherent.scans source target relation
  refine ⟨?_, scanned source, fun f es fs empty byTable bySource => ?_⟩
  · simp only [select_eq_edges_iff]
    exact ⟨fun ⟨_, asked, _⟩ => asked, fun asked => ⟨_, asked, rfl⟩⟩
  · have plain := scanned none es byTable
    have grouped := scanned (some f) fs bySource
    refine (List.perm_ext_iff_of_nodup grouped.nodup plain.nodup).2 fun e => ?_
    rw [grouped.mem_iff, plain.mem_iff]
    exact and_congr_right fun he => coherent.passes_isEmpty_iff empty target relation he

/-- Three edges that do not stand source by source in their table. -/
theorem select_scans_regrouped :
    ∃ g : Graph, g.Reached ∧
      g.select none none (some ∅) =
        some (.edges [⟨⟨2⟩, ⟨1⟩, ∅⟩, ⟨⟨1⟩, ⟨2⟩, ∅⟩, ⟨⟨1⟩, ⟨1⟩, ∅⟩]) ∧
      g.Scans (some ∅) none (some ∅) [⟨⟨1⟩, ⟨2⟩, ∅⟩, ⟨⟨1⟩, ⟨1⟩, ∅⟩, ⟨⟨2⟩, ⟨1⟩, ∅⟩] ∧
      List.Perm [⟨⟨1⟩, ⟨2⟩, ∅⟩, ⟨⟨1⟩, ⟨1⟩, ∅⟩, ⟨⟨2⟩, ⟨1⟩, ∅⟩]
        ([⟨⟨2⟩, ⟨1⟩, ∅⟩, ⟨⟨1⟩, ⟨2⟩, ∅⟩, ⟨⟨1⟩, ⟨1⟩, ∅⟩] : List Edge) := by
  have built : ofParts [⟨⟨1⟩, ∅⟩, ⟨⟨2⟩, ∅⟩] [⟨⟨2⟩, ⟨1⟩, ∅⟩, ⟨⟨1⟩, ⟨2⟩, ∅⟩] 2 = .ok _ := rfl
  have reached := Reached.step (.parts built) (.addEdge ⟨1⟩ ⟨1⟩ ∅)
  obtain ⟨_, scans, perm⟩ := select_scans reached (some ∅) none (some ∅)
  exact ⟨_, reached, rfl, scans _ rfl, perm ∅ _ _ rfl rfl rfl⟩

end WordGraph.Graph
