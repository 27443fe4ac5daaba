import WordGraph.Proofs.EdgeList.Importing

/-!
Edge lists that are imported in parts or once more. What an import does depends on its graph alone and
is told by its gains, so it may stop behind any record and go on with a new importer, and the same
records gain nothing when they come again. All this is so as long as there are identities for the
nodes that the records ask for; where there are not, the import breaks off.
-/

namespace WordGraph

open EdgeList
open Record (wanted)

namespace Graph

variable {g h : Graph} {rs : List Record} {stats : Stats}

theorem importRecords_halts (sound : g.Sound)
    (full : 2 ^ 64 ≤ g.counter.toNat + (g.lacking (wanted rs)).length) :
    importRecords g rs = .error .exhausted := by
  rw [importRecords, (Importer.tracks_ofGraph sound).addRecords_halts full]
  rfl

theorem importRecords_gains (sound : g.Sound)
    (room : g.counter.toNat + (g.lacking (wanted rs)).length < 2 ^ 64) :
    ∃ h, importRecords g rs = .ok (h, g.counts rs) ∧ ∃ links, g.Gains h rs links := by
  obtain ⟨j, done, _, gains, stats⟩ := (Importer.tracks_ofGraph sound).addRecords rs room
  refine ⟨j.graph, ?_, gains⟩
  rw [importRecords, done, Except.map, stats]
  exact congrArg (fun counted => Except.ok (j.graph, counted)) (Stats.zero_add _)

/-- An import that comes to its end does what its gains say and counts it. -/
theorem importRecords_eq_ok_iff (sound : g.Sound) :
    importRecords g rs = .ok (h, stats) ↔ stats = g.counts rs ∧ ∃ links, g.Gains h rs links := by
  by_cases room : g.counter.toNat + (g.lacking (wanted rs)).length < 2 ^ 64
  · obtain ⟨k, done, links, gains⟩ := importRecords_gains sound room
    rw [done]
    constructor
    · intro same
      obtain ⟨rfl, rfl⟩ := Prod.mk.inj (Except.ok.inj same)
      exact ⟨rfl, links, gains⟩
    · rintro ⟨rfl, others, gains'⟩
      rw [gains.unique gains']
  · rw [importRecords_halts sound (Nat.le_of_not_lt room)]
    constructor
    · intro broken
      cases broken
    · rintro ⟨_, links, gains⟩
      exact absurd (gains.grown.counter_eq ▸ h.counter.toNat_lt) room

theorem importRecords_grown (sound : g.Sound) (done : importRecords g rs = .ok (h, stats)) :
    ∃ names links, g.Grown h names links := by
  obtain ⟨_, links, gains⟩ := (importRecords_eq_ok_iff sound).1 done
  exact ⟨_, links, gains.grown⟩

theorem room_of_ok (sound : g.Sound) (done : importRecords g rs = .ok (h, stats)) :
    g.counter.toNat + (g.lacking (wanted rs)).length < 2 ^ 64 := by
  obtain ⟨_, links, gains⟩ := (importRecords_eq_ok_iff sound).1 done
  exact gains.grown.counter_eq ▸ h.counter.toNat_lt

/-- An import may be broken off behind any record and taken up with a new importer. -/
theorem importRecords_split (sound : g.Sound) {before after : List Record}
    (done : importRecords g (before ++ after) = .ok (h, stats)) :
    ∃ mid first second, importRecords g before = .ok (mid, first) ∧
      importRecords mid after = .ok (h, second) ∧ stats = first + second := by
  obtain ⟨rfl, links, gains⟩ := (importRecords_eq_ok_iff sound).1 done
  have room := room_of_ok sound done
  rw [Record.wanted_append] at room
  have less := g.length_lacking_le_append (wanted before) (wanted after)
  have enough : g.counter.toNat + (g.lacking (wanted before)).length < 2 ^ 64 := by omega
  obtain ⟨mid, first, starts, early⟩ := importRecords_gains sound enough
  rw [early.grown.counter_add_lacking (wanted after)] at room
  obtain ⟨last, second, ends, late⟩ := importRecords_gains early.grown.sound room
  rw [(early.append late).unique gains] at second
  exact ⟨mid, _, _, first, second, early.counts_append after⟩

theorem importRecords_again (sound : g.Sound) (done : importRecords g rs = .ok (h, stats)) :
    importRecords h rs = .ok (h, { stats with nodes := 0 }) := by
  obtain ⟨rfl, links, gains⟩ := (importRecords_eq_ok_iff sound).1 done
  refine (importRecords_eq_ok_iff gains.grown.sound).2 ⟨?_, links, gains.again⟩
  simp only [counts, gains.lacking_nil, List.length_nil]

/-- A record without two usable names only adds to the errors. -/
theorem importRecords_skip (sound : g.Sound) {before after : List Record} {r : Record}
    (unnamed : r.names? = none) (done : importRecords g (before ++ r :: after) = .ok (h, stats)) :
    ∃ fewer, importRecords g (before ++ after) = .ok (h, fewer) ∧ stats = fewer + ⟨0, 0, 1⟩ := by
  obtain ⟨rfl, links, gains⟩ := (importRecords_eq_ok_iff sound).1 done
  have pairs : (before ++ r :: after).filterMap Record.names? =
      (before ++ after).filterMap Record.names? := by
    rw [List.filterMap_append, List.filterMap_append, List.filterMap_cons_none unnamed]
  have asked : wanted (before ++ r :: after) = wanted (before ++ after) := by
    rw [wanted, wanted, pairs]
  refine ⟨g.counts (before ++ after), (importRecords_eq_ok_iff sound).2 ⟨rfl, links, ?_, ?_⟩, ?_⟩
  · rw [← asked]
    exact gains.grown
  · rw [← pairs]
    exact gains.links_eq
  · simp only [counts, asked, pairs, Stats.add_def, List.countP_append, List.countP_cons, unnamed,
      decide_true, if_true, Nat.add_zero, Nat.add_assoc]

/-- What an import of records does to a graph and how it counts it. -/
structure Imports (g h : Graph) (rs : List Record) (stats : Stats) : Prop where
  total : stats.edges + stats.errors = rs.length
  edges_eq : stats.edges = (rs.filterMap Record.names?).length
  nodeCount_eq : h.nodeCount = g.nodeCount + stats.nodes
  nodes_kept : ∃ new, h.nodes = g.nodes ++ new ∧ ∀ n ∈ new, ∃ name,
    n.attributes.toList = [(nameKey, name)] ∧ g.carriers name = [] ∧ name ∈ wanted rs
  edges_kept : ∃ new, h.edges.map Edge.endpoints = g.edges.map Edge.endpoints ++ new
  linked : ∀ e ∈ rs.filterMap Record.names?, ∃ a b,
    h.ends? e = some (a, b) ∧ h.edge? a b = some ⟨a, b, ∅⟩
  untouched : ∀ a b, (∀ e ∈ rs.filterMap Record.names?, h.ends? e ≠ some (a, b)) →
    h.edge? a b = g.edge? a b
  carriers_kept : ∀ name, g.carriers name ≠ [] → h.carriers name = g.carriers name
  carried : ∀ name ∈ wanted rs, g.carriers name = [] → ∃ n, h.carriers name = [n]

theorem Gains.imports {links : List Endpoints} (gains : g.Gains h rs links) :
    g.Imports h rs (g.counts rs) := by
  have listed {e : Endpoints} : some e ∈ (rs.filterMap Record.names?).map h.ends? ↔ e ∈ links := by
    rw [gains.links_eq, List.mem_map]
    exact ⟨fun ⟨_, mem, same⟩ => Option.some.inj same ▸ mem, fun mem => ⟨e, mem, rfl⟩⟩
  obtain ⟨new, nodes, _, attributes⟩ := gains.grown.nodes_eq
  exact {
    total := g.edges_add_errors rs
    edges_eq := rfl
    nodeCount_eq := by
      have count (g : Graph) : g.nodeCount = g.nodes.length := (List.length_map ..).symm
      rw [count, count, gains.grown.length_nodes]
      rfl
    nodes_kept := by
      refine ⟨new, nodes, fun n hn => ?_⟩
      have given : n.attributes.toList ∈ new.map (·.attributes.toList) := List.mem_map_of_mem hn
      rw [attributes] at given
      obtain ⟨name, mem, named⟩ := List.mem_map.1 given
      obtain ⟨asked, unknown⟩ := (mem_lacking_iff ..).1 mem
      exact ⟨name, named.symm, unknown, asked⟩
    edges_kept := by
      rw [map_endpoints_edges, map_endpoints_edges, gains.grown.edgeTable_eq, Catalog.keys_putAll]
      exact ⟨_, rfl⟩
    linked := fun e he => by
      have found : h.ends? e ∈ links.map some := gains.links_eq ▸ List.mem_map_of_mem he
      obtain ⟨⟨a, b⟩, linked, ends⟩ := List.mem_map.1 found
      exact ⟨a, b, ends.symm, by rw [gains.grown.edge?_eq, if_pos linked]⟩
    untouched := fun a b other => by
      rw [gains.grown.edge?_eq, if_neg]
      intro linked
      obtain ⟨e, he, same⟩ := List.mem_map.1 (listed.2 linked)
      exact other e he same
    carriers_kept := fun name carried => gains.grown.carriers_kept carried
    carried := fun name asked unknown =>
      gains.grown.carriers_single ((mem_lacking_iff ..).2 ⟨asked, unknown⟩) }

/-- Says that an import can be broken off and taken up again, leaves nothing to do for a second import
of the same records, and counts a record that it cannot use and does nothing else with it. -/
structure Replays (g h : Graph) (rs : List Record) (stats : Stats) : Prop where
  imports : g.Imports h rs stats
  split : ∀ before after, before ++ after = rs →
    ∃ mid first second, importRecords g before = .ok (mid, first) ∧
      importRecords mid after = .ok (h, second) ∧ stats = first + second
  again : importRecords h rs = .ok (h, { stats with nodes := 0 })
  skip : ∀ before r after, before ++ r :: after = rs → r.names? = none →
    ∃ fewer, importRecords g (before ++ after) = .ok (h, fewer) ∧ stats = fewer + ⟨0, 0, 1⟩

/-- An import comes to its end and can be replayed exactly if there are identities for all names that
no node carries yet. -/
theorem importRecords_replays_iff (sound : g.Sound) (rs : List Record) :
    (∃ h stats, importRecords g rs = .ok (h, stats) ∧ g.Replays h rs stats) ↔
      g.counter.toNat + (g.lacking (wanted rs)).length < 2 ^ 64 := by
  constructor
  · rintro ⟨h, stats, done, _⟩
    exact room_of_ok sound done
  · intro room
    obtain ⟨h, done, links, gains⟩ := importRecords_gains sound room
    refine ⟨h, _, done, gains.imports, ?_, importRecords_again sound done, ?_⟩
    · rintro before after rfl
      exact importRecords_split sound done
    · rintro before r after rfl unnamed
      exact importRecords_skip sound unnamed done

/-- Two nodes carry one name, records repeat a pair, name a node twice or cannot be used, and the last
identity is given out. -/
theorem importRecords_replays_iff_mixed :
    let rs := [.fields ["a", "b"], .unreadable, .fields ["b", "x;"], .fields ["a", "b", "c"],
      .fields ["d", "d"], .fields ["a"]]
    ∃ g h, ofParts [⟨⟨1⟩, .put ∅ nameKey "a" rfl rfl⟩, ⟨⟨3⟩, .put ∅ nameKey "a" rfl rfl⟩]
        [⟨⟨3⟩, ⟨1⟩, .put ∅ "k" "v" rfl rfl⟩] (lastCounter - 2) = .ok g ∧
      g.counter.toNat + (g.lacking (wanted rs)).length < 2 ^ 64 ∧
      importRecords g rs = .ok (h, ⟨2, 3, 3⟩) ∧ g.Replays h rs ⟨2, 3, 3⟩ := by
  intro rs
  obtain ⟨g, parts⟩ : ∃ g, ofParts
      [⟨⟨1⟩, .put ∅ nameKey "a" rfl rfl⟩, ⟨⟨3⟩, .put ∅ nameKey "a" rfl rfl⟩]
      [⟨⟨3⟩, ⟨1⟩, .put ∅ "k" "v" rfl rfl⟩] (lastCounter - 2) = .ok g := ⟨_, rfl⟩
  have room : g.counter.toNat + (g.lacking (wanted rs)).length < 2 ^ 64 := by
    cases parts
    decide +kernel
  have counts : g.counts rs = ⟨2, 3, 3⟩ := by
    cases parts
    decide +kernel
  obtain ⟨h, stats, done, replays⟩ := (importRecords_replays_iff (sound_ofParts parts) rs).2 room
  obtain ⟨rfl, _⟩ := (importRecords_eq_ok_iff (sound_ofParts parts)).1 done
  rw [counts] at done replays
  exact ⟨g, h, parts, room, done, replays⟩

/-- Behind the last counter a record whose second name no node carries breaks the import off. -/
theorem not_replays_last :
    ∃ g, ofParts [⟨⟨1⟩, .put ∅ nameKey "a" rfl rfl⟩] [] lastCounter = .ok g ∧
      importRecords g [.fields ["a", "b"]] = .error .exhausted ∧
      ¬∃ h stats, importRecords g [.fields ["a", "b"]] = .ok (h, stats) ∧
        g.Replays h [.fields ["a", "b"]] stats := by
  obtain ⟨g, parts⟩ : ∃ g, ofParts [⟨⟨1⟩, .put ∅ nameKey "a" rfl rfl⟩] [] lastCounter = .ok g :=
    ⟨_, rfl⟩
  have full : 2 ^ 64 ≤ g.counter.toNat + (g.lacking (wanted [.fields ["a", "b"]])).length := by
    cases parts
    decide +kernel
  have broken := importRecords_halts (sound_ofParts parts) full
  refine ⟨g, parts, broken, ?_⟩
  rintro ⟨h, stats, done, _⟩
  rw [broken] at done
  cases done

end Graph
end WordGraph
