import Mathlib.Algebra.Group.Nat.Defs
import WordGraph.Proofs.EdgeList.Gains
import WordGraph.Proofs.Failure

/-!
What the importer does with records. It keeps its own map from names to nodes, which always agrees with
the graph, where a name stands for the last node that carries it. One record after another adds what
it should to the graph, until a name needs a node and no identity is left: then the import breaks off.
-/

namespace WordGraph

theorem Attributes.ofList_single {value : String} (key : String) (hk : admissible key = true)
    (hv : admissible value = true) :
    ∃ a, Attributes.ofList [(key, value)] = .ok a ∧ a.toList = [(key, value)] := by
  refine ⟨Attributes.put ∅ key value hk hv, ?_, rfl⟩
  rw [ofList, List.foldlM_cons, (insert_eq_ok_iff ..).2 ⟨hk, hv, rfl⟩]
  rfl

theorem Attributes.ofList_single_unusable {value : String} (key : String)
    (hv : admissible value = false) :
    ∃ fault, Attributes.ofList [(key, value)] = .error fault := by
  rw [ofList, List.foldlM_cons]
  cases done : Attributes.insert ∅ key value with
  | error fault => exact ⟨fault, rfl⟩
  | ok a =>
      obtain ⟨_, usable, _⟩ := (insert_eq_ok_iff ..).1 done
      rw [hv] at usable
      cases usable

namespace EdgeList.Importer

open Record (wanted)

variable {i j : Importer}

/-- Says that the map of the importer is the one that its graph determines. -/
structure Tracks (i : Importer) : Prop where
  sound : i.graph.Sound
  known_eq : ∀ name, i.known.find? name = i.graph.bearer? name

theorem tracks_ofGraph {g : Graph} (sound : g.Sound) : (ofGraph g).Tracks where
  sound
  known_eq name := by
    have named (ns : List Node) :
        (ns.filterMap fun n => (n.attributes.get? nameKey).map fun ext => (ext, n.id)).filter
            (·.1 = name) =
          (ns.filter fun n => n.attributes.get? nameKey = some name).map fun n => (name, n.id) := by
      induction ns with
      | nil => rfl
      | cons n ns ih =>
          rw [List.filterMap_cons, List.filter_cons]
          cases carried : n.attributes.get? nameKey with
          | none => simpa using ih
          | some ext =>
              by_cases same : ext = name
              · simp [same, ih]
              · simp [same, ih]
    rw [ofGraph, OrderedMap.find?_ofList, named, List.getLast?_map, Option.map_map]
    rfl

theorem nodeFor_known (h : i.Tracks) {name : String} {id : NodeId}
    (found : i.graph.bearer? name = some id) (a : Attributes) : i.nodeFor name a = .ok (i, id) := by
  rw [nodeFor, h.known_eq, found]

theorem addNode_grown {g h : Graph} (sound : g.Sound) {name : String} (new : g.carriers name = [])
    {a : Attributes} (named : a.toList = [(nameKey, name)]) (added : g.addNode a = .ok h) :
    g.Grown h [name] [] ∧ h.bearer? name = some g.nextId := by
  have whole := sound.addNode added
  obtain ⟨room, rfl⟩ := (Graph.addNode_eq_ok_iff ..).1 added
  have nodes := g.nodeTable.values_insert_new (Node.id_mk g.nextId a) (sound.nextId_not_mem room)
  have stored : (nameKey, name) ∈ a.toList := named.symm ▸ List.mem_singleton.2 rfl
  have carried : a.get? nameKey = some name := (OrderedMap.find?_eq_some_iff ..).2 stored
  constructor
  · exact {
      sound := whole
      nodes_eq := by
        refine ⟨_, nodes, ?_, by simp [named]⟩
        simp [NodeId.toNat, Graph.nextId, Graph.toNat_succ room]
      counter_eq := Graph.toNat_succ room
      names_nodup := List.nodup_singleton name
      names_new := fun other same => List.mem_singleton.1 same ▸ new
      edgeTable_eq := rfl
      adjacency_eq := rfl }
  · rw [Graph.bearer?, Graph.carriers, Graph.nodes, nodes, List.filter_append]
    simp [carried]

/-- A name that no node carries needs an identity, and gets the next one if there is one left. -/
theorem nodeFor_spec (h : i.Tracks) {name : String} {a : Attributes}
    (named : a.toList = [(nameKey, name)])
    (room : i.graph.counter.toNat + (i.graph.lacking [name]).length < 2 ^ 64) :
    ∃ j id, i.nodeFor name a = .ok (j, id) ∧ j.Tracks ∧
      i.graph.Grown j.graph (i.graph.lacking [name]) [] ∧ j.graph.bearer? name = some id ∧
      j.stats = { i.stats with nodes := i.stats.nodes + (i.graph.lacking [name]).length } := by
  rw [Graph.lacking_single] at room ⊢
  split at room <;> rename_i carried
  · rw [if_pos carried]
    have left : i.graph.counter ≠ Graph.lastCounter := by
      intro last
      rw [last, List.length_singleton] at room
      exact absurd room (by decide)
    obtain ⟨g, added⟩ : ∃ g, i.graph.addNode a = .ok g :=
      ⟨_, (Graph.addNode_eq_ok_iff ..).2 ⟨left, rfl⟩⟩
    obtain ⟨grown, bearer⟩ := addNode_grown h.sound carried named added
    have unknown : i.known.find? name = none := by
      rw [h.known_eq, Graph.bearer?_eq_none_iff, carried]
    refine ⟨_, _, by rw [nodeFor, unknown, added]; rfl, ⟨grown.sound, fun other => ?_⟩, grown,
      bearer, rfl⟩
    rw [OrderedMap.find?_insert]
    split
    · rename_i same
      exact same ▸ bearer.symm
    · rename_i different
      rw [h.known_eq]
      cases found : i.graph.bearer? other with
      | some id => exact (grown.bearer?_kept found).symm
      | none =>
          have unlike : other ∉ [name] := fun mem => different (List.mem_singleton.1 mem).symm
          rw [Graph.bearer?_eq_none_iff] at found
          rw [eq_comm, Graph.bearer?_eq_none_iff, grown.carriers_eq_nil_iff]
          exact ⟨found, unlike⟩
  · rw [if_neg carried]
    obtain ⟨id, found⟩ := Option.ne_none_iff_exists'.1 (mt (Graph.bearer?_eq_none_iff ..).1 carried)
    exact ⟨i, id, nodeFor_known h found a, h, .refl h.sound, found, rfl⟩

theorem nodeFor_halts (h : i.Tracks) {name : String} (a : Attributes)
    (full : 2 ^ 64 ≤ i.graph.counter.toNat + (i.graph.lacking [name]).length) :
    i.nodeFor name a = .error .exhausted := by
  have below := i.graph.counter.toNat_lt
  rw [Graph.lacking_single] at full
  split at full <;> rename_i carried
  · have last : i.graph.counter = Graph.lastCounter := by
      refine UInt64.toNat_inj.1 ?_
      have value : Graph.lastCounter.toNat = 2 ^ 64 - 1 := rfl
      rw [List.length_singleton] at full
      omega
    have unknown : i.known.find? name = none := by
      rw [h.known_eq, Graph.bearer?_eq_none_iff, carried]
    rw [nodeFor, unknown, Graph.addNode, if_pos last]
    rfl
  · exact absurd full (Nat.not_le.2 below)

theorem linkNodes_spec (h : i.Tracks) {x y : NodeId} (hx : x ∈ i.graph.nodeTable.keys)
    (hy : y ∈ i.graph.nodeTable.keys) :
    (i.linkNodes x y).known = i.known ∧
      i.graph.Grown (i.linkNodes x y).graph [] [(x, y)] ∧
      (i.linkNodes x y).stats = { i.stats with edges := i.stats.edges + 1 } := by
  have added := Graph.addEdge_eq_put (e := ⟨x, y, ∅⟩) ⟨hx, hy⟩
  rw [linkNodes, added]
  exact ⟨rfl, .of_links (h.sound.addEdge added) rfl rfl rfl rfl, rfl⟩

section Names

variable {source target : String} {a b : Attributes}

theorem linkNames_spec (h : i.Tracks) (ha : a.toList = [(nameKey, source)])
    (hb : b.toList = [(nameKey, target)])
    (room : i.graph.counter.toNat + (i.graph.lacking [source, target]).length < 2 ^ 64) :
    ∃ j x, i.linkNames source target a b = .ok j ∧ j.Tracks ∧
      i.graph.Grown j.graph (i.graph.lacking [source, target]) [x] ∧
      j.graph.ends? (source, target) = some x ∧
      j.stats = i.stats + ⟨(i.graph.lacking [source, target]).length, 1, 0⟩ := by
  have less := i.graph.length_lacking_le_append [source] [target]
  rw [List.singleton_append] at less
  obtain ⟨u, x, made, hu, grown, bearer, stats⟩ := nodeFor_spec h ha (by omega)
  have enough := grown.counter_add_lacking [target]
  rw [List.singleton_append] at enough
  obtain ⟨v, y, made', hv, grown', bearer', stats'⟩ := nodeFor_spec hu hb (enough ▸ room)
  have both : i.graph.lacking [source, target] = _ := grown.lacking_append [target]
  rw [both, List.length_append]
  have kept := grown'.bearer?_kept bearer
  obtain ⟨known, grown'', stats''⟩ := linkNodes_spec hv (Graph.mem_keys_of_bearer? kept)
    (Graph.mem_keys_of_bearer? bearer')
  have whole := (grown.trans grown').trans grown''
  rw [List.append_nil] at whole
  have same (name : String) : (v.linkNodes x y).graph.bearer? name = v.graph.bearer? name := by
    obtain ⟨new, nodes, ids, _⟩ := grown''.nodes_eq
    rw [Graph.bearer?, Graph.bearer?, Graph.carriers, Graph.carriers, nodes,
      List.map_eq_nil_iff.1 ids, List.append_nil]
  refine ⟨v.linkNodes x y, (x, y), ?_, ⟨whole.sound, fun name => ?_⟩, whole, ?_, ?_⟩
  · rw [linkNames, Except.bind_eq_ok_iff]
    exact ⟨_, made, (Except.bind_eq_ok_iff ..).2 ⟨_, made', rfl⟩⟩
  · rw [known, hv.known_eq, same]
  · rw [Graph.ends?_eq_some_iff, same, same]
    exact ⟨kept, bearer'⟩
  · rw [stats'', stats', stats, Nat.add_assoc]
    rfl

theorem linkNames_halts (h : i.Tracks) (ha : a.toList = [(nameKey, source)]) (b : Attributes)
    (full : 2 ^ 64 ≤ i.graph.counter.toNat + (i.graph.lacking [source, target]).length) :
    i.linkNames source target a b = .error .exhausted := by
  by_cases room : i.graph.counter.toNat + (i.graph.lacking [source]).length < 2 ^ 64
  · obtain ⟨u, x, made, hu, grown, _⟩ := nodeFor_spec h ha room
    have needed := grown.counter_add_lacking [target]
    rw [List.singleton_append] at needed
    have failed := nodeFor_halts hu b (needed ▸ full)
    rw [linkNames, made]
    exact congrArg (fun z => z >>= fun made : Importer × NodeId => .ok (made.1.linkNodes x made.2))
      failed
  · have failed := nodeFor_halts h a (Nat.le_of_not_lt room)
    rw [linkNames, failed]
    rfl

end Names

section Records

variable {r : Record} {rs : List Record}

theorem addRecord_unnamed (i : Importer) (unnamed : r.names? = none) :
    i.addRecord r = .ok i.reject := by
  match r with
  | .unreadable | .fields [] | .fields [_] => rfl
  | .fields (source :: target :: rest) =>
      have unusable : (admissible source && admissible target) = false := by
        rw [Record.names?] at unnamed
        split at unnamed
        · cases unnamed
        · rename_i unusable
          exact Bool.eq_false_iff.2 unusable
      rw [addRecord]
      split
      · rfl
      · rw [addEdge]
        rcases Bool.and_eq_false_iff.1 unusable with first | second
        · obtain ⟨fault, failed⟩ := Attributes.ofList_single_unusable nameKey first
          rw [failed]
        · obtain ⟨fault, failed⟩ := Attributes.ofList_single_unusable nameKey second
          rw [failed]
          cases Attributes.ofList [(nameKey, source)] <;> rfl

theorem addRecord_named (i : Importer) {source target : String}
    (named : r.names? = some (source, target)) :
    ∃ a b, a.toList = [(nameKey, source)] ∧ b.toList = [(nameKey, target)] ∧
      i.addRecord r = i.linkNames source target a b := by
  match r with
  | .fields (first :: second :: rest) =>
      rw [Record.names?] at named
      split at named
      · rename_i usable
        obtain ⟨rfl, rfl⟩ := Prod.mk.inj (Option.some.inj named)
        obtain ⟨hs, ht⟩ := Bool.and_eq_true_iff.1 usable
        obtain ⟨a, oka, ha⟩ := Attributes.ofList_single nameKey (by decide +kernel) hs
        obtain ⟨b, okb, hb⟩ := Attributes.ofList_single nameKey (by decide +kernel) ht
        have filled : ¬ (first.isEmpty || second.isEmpty) = true := by
          rw [Bool.or_eq_true, not_or, String.isEmpty_iff, String.isEmpty_iff]
          exact ⟨(Graph.usable_of_admissible hs).1, (Graph.usable_of_admissible ht).1⟩
        refine ⟨a, b, ha, hb, ?_⟩
        rw [addRecord, if_neg filled, addEdge, oka, okb]
      · cases named

/-- A record that names two ends adds its edge with the nodes that are lacking; any other is counted and
changes nothing. -/
theorem Tracks.addRecord (h : i.Tracks) (r : Record)
    (room : i.graph.counter.toNat + (i.graph.lacking (wanted [r])).length < 2 ^ 64) :
    ∃ j, i.addRecord r = .ok j ∧ j.Tracks ∧ (∃ links, i.graph.Gains j.graph [r] links) ∧
      j.stats = i.stats + i.graph.counts [r] := by
  cases named : r.names? with
  | none =>
      have nothing : [r].filterMap Record.names? = [] := List.filterMap_cons_none named
      refine ⟨_, addRecord_unnamed i named, ⟨h.sound, h.known_eq⟩, ⟨[], ?_, ?_⟩, ?_⟩
      · rw [wanted, nothing]
        exact .refl h.sound
      · rw [nothing]
        rfl
      · simp only [Graph.counts, wanted, nothing, List.countP_cons, named]
        rfl
  | some e =>
      obtain ⟨source, target⟩ := e
      have one : [r].filterMap Record.names? = [(source, target)] := List.filterMap_cons_some named
      have asked : wanted [r] = [source, target] := by
        rw [wanted, one]
        rfl
      rw [asked] at room
      obtain ⟨a, b, ha, hb, added⟩ := addRecord_named i named
      obtain ⟨j, x, done, tracks, grown, ends, stats⟩ := linkNames_spec h ha hb room
      refine ⟨j, added.trans done, tracks, ⟨[x], asked ▸ grown, ?_⟩, ?_⟩
      · rw [one, List.map_singleton, ends]
        rfl
      · simp only [stats, Graph.counts, asked, one, List.countP_cons, named]
        rfl

theorem Tracks.addRecord_halts (h : i.Tracks)
    (full : 2 ^ 64 ≤ i.graph.counter.toNat + (i.graph.lacking (wanted [r])).length) :
    i.addRecord r = .error .exhausted := by
  cases named : r.names? with
  | none =>
      rw [wanted, List.filterMap_cons_none named] at full
      exact absurd full (Nat.not_le.2 i.graph.counter.toNat_lt)
  | some e =>
      rw [wanted, List.filterMap_cons_some named] at full
      obtain ⟨a, b, ha, _, added⟩ := addRecord_named i named
      rw [added]
      exact linkNames_halts h ha b full

/-- The records of a run add their gains one after another, if there are identities for all of them. -/
theorem Tracks.addRecords (h : i.Tracks) (rs : List Record)
    (room : i.graph.counter.toNat + (i.graph.lacking (wanted rs)).length < 2 ^ 64) :
    ∃ j, i.addRecords rs = .ok j ∧ j.Tracks ∧ (∃ links, i.graph.Gains j.graph rs links) ∧
      j.stats = i.stats + i.graph.counts rs := by
  induction rs generalizing i with
  | nil => exact ⟨i, rfl, h, ⟨[], .refl h.sound, rfl⟩, rfl⟩
  | cons r rs ih =>
      rw [← List.singleton_append, Record.wanted_append] at room
      have less := i.graph.length_lacking_le_append (wanted [r]) (wanted rs)
      obtain ⟨j, added, hj, ⟨links, gains⟩, stats⟩ := h.addRecord r (by omega)
      have enough := gains.grown.counter_add_lacking (wanted rs)
      obtain ⟨k, done, hk, ⟨others, gains'⟩, stats'⟩ := ih hj (enough ▸ room)
      refine ⟨k, ?_, hk, ⟨_, gains.append gains'⟩, ?_⟩
      · rw [Importer.addRecords, List.foldlM_cons, added]
        exact done
      · rw [stats', stats, Stats.add_assoc, ← gains.counts_append]
        rfl

theorem Tracks.addRecords_halts (h : i.Tracks)
    (full : 2 ^ 64 ≤ i.graph.counter.toNat + (i.graph.lacking (wanted rs)).length) :
    i.addRecords rs = .error .exhausted := by
  induction rs generalizing i with
  | nil => exact absurd full (Nat.not_le.2 i.graph.counter.toNat_lt)
  | cons r rs ih =>
      rw [Importer.addRecords, List.foldlM_cons]
      by_cases room : i.graph.counter.toNat + (i.graph.lacking (wanted [r])).length < 2 ^ 64
      · obtain ⟨j, added, hj, ⟨links, gains⟩, _⟩ := h.addRecord r room
        rw [← List.singleton_append, Record.wanted_append,
          gains.grown.counter_add_lacking (wanted rs)] at full
        rw [added]
        exact ih hj full
      · rw [h.addRecord_halts (Nat.le_of_not_lt room)]
        rfl

end Records

end EdgeList.Importer
end WordGraph
