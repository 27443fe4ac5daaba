import WordGraph.Proofs.Query.Agreement
import WordGraph.Proofs.Snapshot.File

/-!
Saving and reopening. The snapshot of a session's graph holds no adjacency, and no names; the graph
that is read back lists every neighbour in the place it had, so a batch without a RETURN runs on a
new session over it as it runs on the session that was saved.
-/

namespace WordGraph

/-- Says that two graphs look the same from outside: what they hold and its order, and what is found
in them. -/
structure Graph.Alike (g h : Graph) : Prop where
  counter_eq : g.counter = h.counter
  nodes_eq : g.nodes = h.nodes
  edges_eq : g.edges = h.edges
  neighbors_eq : ∀ id, g.neighbors id = h.neighbors id
  predecessors_eq : ∀ id, g.predecessors id = h.predecessors id
  edgesBetween_eq : ∀ source target relation,
    g.edgesBetween source target relation = h.edgesBetween source target relation
  matchChain_eq : ∀ nodes edges allowed,
    g.matchChain nodes edges allowed = h.matchChain nodes edges allowed
  shortestPath_eq : ∀ source target, g.shortestPath source target = h.shortestPath source target

theorem Graph.Agrees.alike {g h : Graph} (a : g.Agrees h) : g.Alike h where
  counter_eq := a.counter_eq
  nodes_eq := a.nodes_eq
  edges_eq := a.edges_eq
  neighbors_eq := a.neighbors_eq
  predecessors_eq := a.predecessors_eq
  edgesBetween_eq := a.edgesBetween_eq
  matchChain_eq := a.matchChain_eq
  shortestPath_eq := a.shortestPath_eq

theorem Snapshot.decode_agrees {pack : List UInt8 → List UInt8}
    {unpack : List UInt8 → Option (List UInt8)} (packing : Packing pack unpack) {g : Graph}
    (sound : g.Sound) (small : (Image.ofGraph g g.counter).write.length < 2 ^ 32) :
    ∃ h, decodeWith unpack (encodeWith pack g g.counter) = .ok (h, g.counter) ∧ h.Agrees g := by
  obtain ⟨h, built, nodes, edges, counter⟩ := sound.ofParts
  have coherent := (Graph.sound_ofParts built).coherent
  exact ⟨h, decode_encodeWith packing small built,
    .of_tables coherent sound.coherent nodes edges counter⟩

namespace Session

/-- Says that no statement of the text holds a RETURN. -/
def ReturnFree (text : String) : Prop :=
  ∀ cs, .ok cs ∈ Statement.parse (splitWords text) → ∀ c ∈ cs, c.keyword ≠ .returning

instance (text : String) : Decidable (ReturnFree text) :=
  decidable_of_iff (∀ statement ∈ Statement.parse (splitWords text),
      ∀ c ∈ statement.toOption.getD [], c.keyword ≠ .returning) <| by
    refine ⟨fun h cs hcs => h _ hcs, fun h statement hs => ?_⟩
    cases statement with
    | error e => exact fun c hc => nomatch hc
    | ok cs => exact h cs hs

/-- Whatever led to a session, its graph is read back from its snapshot, and every batch without a
RETURN gives the same reports on it and again graphs that look the same. -/
theorem execute_reopened {pack : List UInt8 → List UInt8}
    {unpack : List UInt8 → Option (List UInt8)} (packing : Snapshot.Packing pack unpack)
    (inputs : List Input) (s : Session) (reached : afterAll inputs = s)
    (small : (Image.ofGraph s.graph s.graph.counter).write.length < 2 ^ 32) :
    ∃ g, Snapshot.decodeWith unpack (Snapshot.encodeWith pack s.graph s.graph.counter) =
        .ok (g, s.graph.counter) ∧
      g.Alike s.graph ∧
      ∀ text, ReturnFree text →
        ((ofGraph g).execute text).2 = (s.execute text).2 ∧
        ((ofGraph g).execute text).1.graph.Alike (s.execute text).1.graph := by
  have sound : s.graph.Sound := reached ▸ afterAll_sound inputs
  obtain ⟨g, read, agrees⟩ := Snapshot.decode_agrees packing sound small
  refine ⟨g, read, agrees.alike, fun text free => ?_⟩
  rw [execute, execute, executeWords, executeWords]
  have start : (ofGraph g).graph.Agrees s.graph := agrees
  obtain ⟨graphs, reports⟩ := runStatements_agrees start free
  exact ⟨reports, graphs.alike⟩

/-- An edge that was deleted and imported again stands behind the others, also after reopening. -/
theorem execute_reopened_relinked :
    ∃ s g, afterAll [.text "CREATE n: x id:a ;", .edges [.fields ["a", "b"], .fields ["a", "c"]],
        .text "DELETEEDGE e: r ;", .edges [.fields ["a", "c"], .fields ["a", "b"]]] = s ∧
      Snapshot.decode (Snapshot.encode s.graph s.graph.counter) = .ok (g, s.graph.counter) ∧
      ((ofGraph g).execute "NEIGHBOR n: x id:a ; CREATE n: y ;").2 =
        (s.execute "NEIGHBOR n: x id:a ; CREATE n: y ;").2 := by
  obtain ⟨g, read, _, run⟩ := execute_reopened Snapshot.packing_block
    [.text "CREATE n: x id:a ;", .edges [.fields ["a", "b"], .fields ["a", "c"]], .text "DELETEEDGE e: r ;",
      .edges [.fields ["a", "c"], .fields ["a", "b"]]] _ rfl (by decide +kernel)
  exact ⟨_, g, rfl, read, (run "NEIGHBOR n: x id:a ; CREATE n: y ;" (by decide +kernel)).1⟩

end Session
end WordGraph
