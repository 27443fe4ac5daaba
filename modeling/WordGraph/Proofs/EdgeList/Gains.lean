import WordGraph.EdgeList.Import
import WordGraph.Proofs.Distinct
import WordGraph.Proofs.Graph.Relinking

/-!
What records add to a graph: a node for each of their names that no node carries, behind the others
and under the next identities, and an edge between the nodes that each pair of names stands for. This
determines the graph, row after row and number after number, and gains upon gains are those of all the
records together.
-/

namespace WordGraph

/-- The names of the ends of an edge, if a record has them and both can be attributes. -/
def Record.names? : Record → Option (String × String)
  | .fields (source :: target :: _) =>
      if admissible source && admissible target then some (source, target) else none
  | _ => none

/-- The names that records ask for, in their order. -/
def Record.wanted (rs : List Record) : List String :=
  (rs.filterMap Record.names?).flatMap fun e => [e.1, e.2]

theorem Record.wanted_append (rs more : List Record) :
    wanted (rs ++ more) = wanted rs ++ wanted more := by
  rw [wanted, List.filterMap_append, List.flatMap_append]
  rfl

namespace EdgeList

instance : Add Stats := ⟨fun a b => ⟨a.nodes + b.nodes, a.edges + b.edges, a.errors + b.errors⟩⟩

theorem Stats.add_def (a b : Stats) :
    a + b = ⟨a.nodes + b.nodes, a.edges + b.edges, a.errors + b.errors⟩ := rfl

theorem Stats.add_assoc (a b c : Stats) : a + b + c = a + (b + c) := by
  simp only [add_def, Nat.add_assoc]

theorem Stats.zero_add (a : Stats) : {} + a = a := by
  simp only [add_def, Nat.zero_add]

end EdgeList

open EdgeList (Stats)
open Record (wanted)

namespace Graph

variable {g h k : Graph}

/-- The nodes that carry an external name. -/
def carriers (g : Graph) (name : String) : List Node :=
  g.nodes.filter fun n => n.attributes.get? EdgeList.nameKey = some name

/-- The node that a name stands for. -/
def bearer? (g : Graph) (name : String) : Option NodeId := (g.carriers name).getLast?.map Node.id

/-- The names that no node carries yet. -/
def lacking (g : Graph) (names : List String) : List String :=
  names.eraseDups.filter fun name => g.carriers name = []

theorem bearer?_eq_none_iff (g : Graph) (name : String) :
    g.bearer? name = none ↔ g.carriers name = [] := by
  rw [bearer?, Option.map_eq_none_iff, List.getLast?_eq_none_iff]

theorem carriers_ne_nil_of_bearer? {name : String} {id : NodeId} (found : g.bearer? name = some id) :
    g.carriers name ≠ [] := by
  rw [Ne, ← bearer?_eq_none_iff, found]
  exact Option.some_ne_none id

theorem mem_keys_of_bearer? {name : String} {id : NodeId} (found : g.bearer? name = some id) :
    id ∈ g.nodeTable.keys := by
  obtain ⟨n, last, rfl⟩ := Option.map_eq_some_iff.1 found
  exact g.map_id_nodes ▸ List.mem_map_of_mem (List.mem_of_mem_filter (List.mem_of_getLast? last))

theorem mem_lacking_iff (g : Graph) (names : List String) (name : String) :
    name ∈ g.lacking names ↔ name ∈ names ∧ g.carriers name = [] := by
  simp [lacking, List.mem_eraseDups]

theorem lacking_single (g : Graph) (name : String) :
    g.lacking [name] = if g.carriers name = [] then [name] else [] := by
  simp only [lacking, List.eraseDups_cons, List.filter_nil, List.eraseDups_nil, List.filter_cons,
    decide_eq_true_eq]

theorem lacking_append_eq (g : Graph) (first more : List String) :
    g.lacking (first ++ more) = g.lacking first ++ (g.lacking more).filter (· ∉ first) := by
  have left : more.removeAll first = more.filter (· ∉ first) := by
    simp only [List.removeAll, List.elem_eq_mem, decide_not]
  rw [lacking, List.eraseDups_append, List.filter_append, left, Distinct.eraseDups_filter,
    List.filter_filter, lacking, lacking, List.filter_filter]
  simp only [Bool.and_comm]

theorem length_lacking_le_append (g : Graph) (first more : List String) :
    (g.lacking first).length ≤ (g.lacking (first ++ more)).length := by
  rw [lacking_append_eq, List.length_append]
  exact Nat.le_add_right ..

/-- The two nodes for which a pair of names stands. -/
def ends? (g : Graph) (e : String × String) : Option Endpoints := do
  let source ← g.bearer? e.1
  let target ← g.bearer? e.2
  return (source, target)

theorem ends?_eq_some_iff (g : Graph) (e : String × String) (a b : NodeId) :
    g.ends? e = some (a, b) ↔ g.bearer? e.1 = some a ∧ g.bearer? e.2 = some b := by
  simp [ends?, Option.bind_eq_some_iff]

/-- Says that a graph grew by nodes with names of their own, which no node carried before, and by
edges without attributes. -/
structure Grown (g h : Graph) (names : List String) (links : List Endpoints) : Prop where
  sound : h.Sound
  nodes_eq : ∃ new, h.nodes = g.nodes ++ new ∧
    new.map (·.id.toNat) = List.range' (g.counter.toNat + 1) names.length ∧
    new.map (·.attributes.toList) = names.map fun name => [(EdgeList.nameKey, name)]
  counter_eq : h.counter.toNat = g.counter.toNat + names.length
  names_nodup : names.Nodup
  names_new : ∀ name ∈ names, g.carriers name = []
  edgeTable_eq : h.edgeTable = g.edgeTable.putAll (links.map fun e => ⟨e.1, e.2, ∅⟩)
  adjacency_eq : h.adjacency = links.foldl (fun a e => a.link e.1 e.2) g.adjacency

namespace Grown

variable {names more : List String} {links others : List Endpoints}

/-- Growth by edges alone. -/
theorem of_links (sound : h.Sound) (nodes : h.nodes = g.nodes) (counter : h.counter = g.counter)
    (edges : h.edgeTable = g.edgeTable.putAll (links.map fun e => ⟨e.1, e.2, ∅⟩))
    (adjacency : h.adjacency = links.foldl (fun a e => a.link e.1 e.2) g.adjacency) :
    g.Grown h [] links where
  sound
  nodes_eq := ⟨[], by rw [nodes, List.append_nil], rfl, rfl⟩
  counter_eq := congrArg UInt64.toNat counter
  names_nodup := .nil
  names_new _ h := nomatch h
  edgeTable_eq := edges
  adjacency_eq := adjacency

theorem refl (sound : g.Sound) : g.Grown g [] [] := of_links sound rfl rfl rfl rfl

theorem length_nodes (grown : g.Grown h names links) :
    h.nodes.length = g.nodes.length + names.length := by
  obtain ⟨new, nodes, ids, _⟩ := grown.nodes_eq
  rw [nodes, List.length_append, ← List.length_range' (n := names.length), ← ids, List.length_map]

theorem nodes_unique (first : g.Grown h names links) (second : g.Grown k names others) :
    h.nodes = k.nodes := by
  obtain ⟨new, nodes, ids, attributes⟩ := first.nodes_eq
  obtain ⟨other, nodes', ids', attributes'⟩ := second.nodes_eq
  have parts : Function.Injective fun n : Node => (n.id.toNat, n.attributes.toList) := by
    intro n m same
    obtain ⟨id, attributes⟩ := Prod.mk.inj same
    obtain ⟨⟨x⟩, a⟩ := n
    obtain ⟨⟨y⟩, b⟩ := m
    cases UInt64.toNat_inj.1 id
    cases Attributes.ext_table (OrderedMap.ext_entries attributes)
    rfl
  have pairs : new.map (fun n => (n.id.toNat, n.attributes.toList)) =
      other.map fun n => (n.id.toNat, n.attributes.toList) := by
    rw [← List.zip_map', ids, attributes, ← ids', ← attributes', List.zip_map']
  rw [nodes, nodes', List.map_injective_iff.2 parts pairs]

/-- What a graph grew by determines what it grew to. -/
theorem unique (first : g.Grown h names links) (second : g.Grown k names links) : h = k := by
  have table : h.nodeTable = k.nodeTable := Catalog.ext_values (first.nodes_unique second)
  have counter : h.counter = k.counter :=
    UInt64.toNat_inj.1 (first.counter_eq.trans second.counter_eq.symm)
  have edges := first.edgeTable_eq.trans second.edgeTable_eq.symm
  have adjacency := first.adjacency_eq.trans second.adjacency_eq.symm
  obtain ⟨_, _, _, _⟩ := h
  obtain ⟨_, _, _, _⟩ := k
  cases table
  cases counter
  cases edges
  cases adjacency
  rfl

theorem carriers_eq (grown : g.Grown h names links) (name : String) :
    ∃ new, h.carriers name = g.carriers name ++ new ∧ new.length = names.count name := by
  obtain ⟨new, nodes, _, attributes⟩ := grown.nodes_eq
  refine ⟨_, by rw [carriers, nodes, List.filter_append]; rfl, ?_⟩
  have carried (n : Node) : decide (n.attributes.get? EdgeList.nameKey = some name) =
      ((n.attributes.toList.find? (·.1 = EdgeList.nameKey)).map Prod.snd == some name) := by
    rw [Bool.eq_iff_iff, decide_eq_true_iff, beq_iff_eq]
    rfl
  calc (new.filter fun n => n.attributes.get? EdgeList.nameKey = some name).length
      = (new.map (·.attributes.toList)).countP fun es =>
          (es.find? (·.1 = EdgeList.nameKey)).map Prod.snd == some name := by
        rw [List.countP_map, List.countP_eq_length_filter]
        exact congrArg List.length (List.filter_congr fun n _ => carried n)
    _ = names.count name := by
        rw [attributes, List.countP_map, List.count]
        refine List.countP_congr fun x _ => ?_
        simp

theorem carriers_eq_nil_iff (grown : g.Grown h names links) (name : String) :
    h.carriers name = [] ↔ g.carriers name = [] ∧ name ∉ names := by
  obtain ⟨new, all, count⟩ := grown.carriers_eq name
  rw [all, List.append_eq_nil_iff, ← List.length_eq_zero_iff (l := new), count, List.count_eq_zero]

/-- A name that some node carries is not carried by any other node later. -/
theorem carriers_kept (grown : g.Grown h names links) {name : String}
    (carried : g.carriers name ≠ []) : h.carriers name = g.carriers name := by
  obtain ⟨new, all, count⟩ := grown.carriers_eq name
  have none_new : names.count name = 0 :=
    List.count_eq_zero.2 fun mem => carried (grown.names_new name mem)
  rw [all, List.eq_nil_of_length_eq_zero (count.trans none_new), List.append_nil]

theorem bearer?_kept (grown : g.Grown h names links) {name : String} {id : NodeId}
    (found : g.bearer? name = some id) : h.bearer? name = some id := by
  rw [← found, bearer?, bearer?, grown.carriers_kept (carriers_ne_nil_of_bearer? found)]

theorem carriers_single (grown : g.Grown h names links) {name : String} (mem : name ∈ names) :
    ∃ n, h.carriers name = [n] := by
  obtain ⟨new, all, count⟩ := grown.carriers_eq name
  rw [List.count_eq_one_of_mem grown.names_nodup mem] at count
  rw [all, grown.names_new name mem, List.nil_append]
  exact List.length_eq_one_iff.1 count

theorem trans (first : g.Grown h names links) (second : h.Grown k more others) :
    g.Grown k (names ++ more) (links ++ others) where
  sound := second.sound
  nodes_eq := by
    obtain ⟨new, nodes, ids, attributes⟩ := first.nodes_eq
    obtain ⟨later, nodes', ids', attributes'⟩ := second.nodes_eq
    refine ⟨new ++ later, by rw [nodes', nodes, List.append_assoc], ?_, ?_⟩
    · rw [List.map_append, ids, ids', first.counter_eq, List.length_append,
        Nat.add_right_comm, ← List.range'_append_1]
    · rw [List.map_append, attributes, attributes', List.map_append]
  counter_eq := by
    rw [second.counter_eq, first.counter_eq, List.length_append, Nat.add_assoc]
  names_nodup := List.nodup_append.2 ⟨first.names_nodup, second.names_nodup, fun x hx y hy same =>
    ((first.carriers_eq_nil_iff y).1 (second.names_new y hy)).2 (same ▸ hx)⟩
  names_new name mem := by
    rcases List.mem_append.1 mem with mem | mem
    · exact first.names_new name mem
    · exact ((first.carriers_eq_nil_iff name).1 (second.names_new name mem)).1
  edgeTable_eq := by
    rw [second.edgeTable_eq, first.edgeTable_eq, List.map_append, Catalog.putAll_append]
  adjacency_eq := by rw [second.adjacency_eq, first.adjacency_eq, List.foldl_append]

theorem lacking_append {first : List String} (grown : g.Grown h (g.lacking first) links)
    (more : List String) : g.lacking (first ++ more) = g.lacking first ++ h.lacking more := by
  rw [lacking_append_eq, lacking, lacking, List.filter_filter]
  congr 1
  refine List.filter_congr fun name _ => ?_
  have still := grown.carriers_eq_nil_iff name
  rw [mem_lacking_iff] at still
  rw [Bool.eq_iff_iff, Bool.and_eq_true, decide_eq_true_iff, decide_eq_true_iff, decide_eq_true_iff,
    still]
  tauto

/-- The last identity that names need is the same before and behind the first of them. -/
theorem counter_add_lacking {first : List String} (grown : g.Grown h (g.lacking first) links)
    (more : List String) : g.counter.toNat + (g.lacking (first ++ more)).length =
      h.counter.toNat + (h.lacking more).length := by
  rw [grown.lacking_append, List.length_append, grown.counter_eq, Nat.add_assoc]

theorem edge?_eq (grown : g.Grown h names links) (a b : NodeId) :
    h.edge? a b = if (a, b) ∈ links then some ⟨a, b, ∅⟩ else g.edge? a b := by
  rw [edge?, grown.edgeTable_eq, Catalog.find?_putAll]
  by_cases linked : (a, b) ∈ links
  · have put : (⟨a, b, ∅⟩ : Edge) ∈ (links.map fun e => ⟨e.1, e.2, ∅⟩).filter
        (Edge.endpoints · = (a, b)) :=
      List.mem_filter.2 ⟨List.mem_map_of_mem linked, decide_eq_true rfl⟩
    obtain ⟨last, found⟩ := Option.ne_none_iff_exists'.1
      (mt List.getLast?_eq_none_iff.1 (List.ne_nil_of_mem put))
    obtain ⟨listed, named⟩ := List.mem_filter.1 (List.mem_of_getLast? found)
    obtain ⟨e, _, rfl⟩ := List.mem_map.1 listed
    cases of_decide_eq_true named
    rw [found, if_pos linked, Option.some_or]
  · have none_put : (links.map fun e => (⟨e.1, e.2, ∅⟩ : Edge)).filter
        (Edge.endpoints · = (a, b)) = [] := by
      refine List.filter_eq_nil_iff.2 fun x listed named => ?_
      obtain ⟨e, mem, rfl⟩ := List.mem_map.1 listed
      exact linked (of_decide_eq_true named ▸ mem)
    rw [none_put, if_neg linked, List.getLast?_nil, Option.none_or]
    rfl

theorem ends?_kept (grown : g.Grown h names links) {e : String × String} {x : Endpoints}
    (found : g.ends? e = some x) : h.ends? e = some x := by
  obtain ⟨a, b⟩ := x
  rw [ends?_eq_some_iff] at found ⊢
  exact ⟨grown.bearer?_kept found.1, grown.bearer?_kept found.2⟩

/-- Links that were put may be put again. -/
theorem again (grown : g.Grown h names links) : h.Grown h [] links := by
  refine of_links grown.sound rfl rfl ?_ ?_
  · rw [grown.edgeTable_eq, Catalog.putAll_again]
  · refine (grown.sound.coherent.links_of_mem fun e he => ?_).symm
    rw [grown.edgeTable_eq]
    exact g.edgeTable.mem_keys_putAll (a := ⟨e.1, e.2, ∅⟩) (List.mem_map_of_mem he)

end Grown

/-- What an import of records counts. -/
def counts (g : Graph) (rs : List Record) : Stats where
  nodes := (g.lacking (wanted rs)).length
  edges := (rs.filterMap Record.names?).length
  errors := rs.countP fun r => r.names? = none

theorem edges_add_errors (g : Graph) (rs : List Record) :
    (g.counts rs).edges + (g.counts rs).errors = rs.length := by
  simp only [counts]
  induction rs with
  | nil => rfl
  | cons r rs ih =>
      cases named : r.names? with
      | none =>
          rw [List.filterMap_cons_none named, List.length_cons, ← ih, List.countP_cons, named]
          rfl
      | some e =>
          rw [List.filterMap_cons_some named, List.length_cons, List.length_cons, ← ih,
            List.countP_cons, named, Nat.add_right_comm]
          rfl

/-- The growth that an import of records comes to: a node for each name that is lacking, and a link
between the nodes that each pair of names stands for in the end. -/
structure Gains (g h : Graph) (rs : List Record) (links : List Endpoints) : Prop where
  grown : g.Grown h (g.lacking (wanted rs)) links
  links_eq : (rs.filterMap Record.names?).map h.ends? = links.map some

namespace Gains

variable {rs more : List Record} {links others : List Endpoints}

theorem unique (first : g.Gains h rs links) (second : g.Gains k rs others) : h = k := by
  have same : h.ends? = k.ends? := by
    funext e
    simp only [ends?, bearer?, carriers, first.grown.nodes_unique second.grown]
  have equal : links = others := by
    refine List.map_injective_iff.2 (fun _ _ => Option.some.inj) ?_
    rw [← first.links_eq, ← second.links_eq, same]
  subst equal
  exact first.grown.unique second.grown

theorem append (first : g.Gains h rs links) (second : h.Gains k more others) :
    g.Gains k (rs ++ more) (links ++ others) where
  grown := by
    rw [Record.wanted_append, first.grown.lacking_append]
    exact first.grown.trans second.grown
  links_eq := by
    rw [List.filterMap_append, List.map_append, second.links_eq, List.map_append,
      ← first.links_eq]
    congr 1
    refine List.map_congr_left fun e he => ?_
    have listed : h.ends? e ∈ links.map some := first.links_eq ▸ List.mem_map_of_mem he
    obtain ⟨x, _, found⟩ := List.mem_map.1 listed
    rw [← found, second.grown.ends?_kept found.symm]

theorem counts_append (first : g.Gains h rs links) (more : List Record) :
    g.counts (rs ++ more) = g.counts rs + h.counts more := by
  simp only [counts, Record.wanted_append, first.grown.lacking_append, List.length_append,
    List.filterMap_append, List.countP_append, Stats.add_def]

/-- No name is lacking any more. -/
theorem lacking_nil (gains : g.Gains h rs links) : h.lacking (wanted rs) = [] := by
  refine List.eq_nil_iff_forall_not_mem.2 fun name mem => ?_
  obtain ⟨asked, unknown⟩ := (mem_lacking_iff ..).1 mem
  obtain ⟨known, absent⟩ := (gains.grown.carriers_eq_nil_iff name).1 unknown
  exact absent ((mem_lacking_iff ..).2 ⟨asked, known⟩)

/-- The same records once more gain nothing. -/
theorem again (gains : g.Gains h rs links) : h.Gains h rs links where
  grown := by
    rw [gains.lacking_nil]
    exact gains.grown.again
  links_eq := gains.links_eq

end Gains
end Graph
end WordGraph
