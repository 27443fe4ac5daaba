import WordGraph.Proofs.EdgeList.Replaying
import WordGraph.Proofs.Query.Effects
import WordGraph.Proofs.Query.Reachable

/-!
Identities of nodes over a run. Every identity is drawn from the counter of the graph, and nothing but
a CLEAR sets the counter back: not a removal, not a failure, not an import and not the way through a
snapshot. So the identities of a run go up, and none of them is that of a node that was there before,
even if the node is gone.
-/

namespace WordGraph

namespace Graph

variable {g h k : Graph}

/-- Says that a graph came out of another one by giving new nodes these identities, the next ones of
its counter and no others. -/
structure Advances (g h : Graph) (ids : List NodeId) : Prop where
  ids_eq : ids.map NodeId.toNat = List.range' (g.counter.toNat + 1) ids.length
  counter_eq : h.counter.toNat = g.counter.toNat + ids.length
  accounted : ∀ id ∈ h.nodeTable.keys, id ∈ g.nodeTable.keys ∨ id ∈ ids

theorem advances_of_keys (counter : h.counter = g.counter)
    (keys : ∀ id ∈ h.nodeTable.keys, id ∈ g.nodeTable.keys) : g.Advances h [] where
  ids_eq := rfl
  counter_eq := congrArg UInt64.toNat counter
  accounted id stored := .inl (keys id stored)

namespace Advances

variable {ids more : List NodeId}

theorem refl (g : Graph) : g.Advances g [] := advances_of_keys rfl fun _ => id

theorem trans (first : g.Advances h ids) (second : h.Advances k more) : g.Advances k (ids ++ more) where
  ids_eq := by
    rw [List.map_append, first.ids_eq, second.ids_eq, first.counter_eq, List.length_append,
      Nat.add_right_comm, ← List.range'_append_1]
  counter_eq := by rw [second.counter_eq, first.counter_eq, List.length_append, Nat.add_assoc]
  accounted id stored := by
    rw [List.mem_append, ← or_assoc]
    rcases second.accounted id stored with old | new
    · exact .inl (first.accounted id old)
    · exact .inr new

theorem increasing (advances : g.Advances h ids) : ids.Pairwise fun a b => a.value < b.value := by
  have pairs := List.pairwise_lt_range' (s := g.counter.toNat + 1) (n := ids.length)
  rw [← advances.ids_eq, List.pairwise_map] at pairs
  exact pairs.imp fun less => UInt64.lt_iff_toNat_lt.2 less

theorem above (advances : g.Advances h ids) {id : NodeId} (mem : id ∈ ids) : g.counter < id.value := by
  have listed : id.toNat ∈ ids.map NodeId.toNat := List.mem_map_of_mem mem
  rw [advances.ids_eq] at listed
  exact UInt64.lt_iff_toNat_lt.2 (List.mem_range'_1.1 listed).1

end Advances

theorem advances_addNode {attributes : Attributes} (added : g.addNode attributes = .ok h) :
    g.Advances h [g.nextId] := by
  obtain ⟨room, rfl⟩ := (addNode_eq_ok_iff ..).1 added
  exact {
    ids_eq := congrArg (fun n => [n]) (toNat_succ room)
    counter_eq := toNat_succ room
    accounted := fun id stored => by
      rcases (OrderedMap.mem_keys_insert ..).1 stored with old | rfl
      · exact .inl old
      · exact .inr (List.mem_singleton.2 rfl) }

theorem advances_connect (g : Graph) (attributes : Attributes) (pairs : List Endpoints) :
    g.Advances (g.connect attributes pairs).1 [] := by
  induction pairs generalizing g with
  | nil => exact .refl g
  | cons e rest ih =>
      rw [connect]
      split
      · rename_i linked added
        have first : g.Advances linked [] := by
          obtain ⟨_, rfl⟩ := (addEdge_eq_ok_iff ..).1 added
          exact advances_of_keys rfl fun _ stored => stored
        exact first.trans (ih linked)
      · exact ih g

theorem advances_changeNodes (g : Graph) (add : Bool) (update : Attributes) (ids : List NodeId) :
    g.Advances (g.changeNodes add update ids).1 [] := by
  refine advances_of_keys ?_ fun id stored => ?_
  · rw [changeNodes_eq]
  · rwa [keys_changeNodes] at stored

theorem advances_changeEdges (g : Graph) (add : Bool) (update : Attributes) (ends : List Endpoints) :
    g.Advances (g.changeEdges add update ends).1 [] := by
  rw [changeEdges_eq]
  exact advances_of_keys rfl fun _ stored => stored

theorem advances_removeNodes (g : Graph) (ids : List NodeId) : g.Advances (g.removeNodes ids).1 [] := by
  induction ids generalizing g with
  | nil => exact .refl g
  | cons id rest ih =>
      rw [removeNodes]
      split
      · rename_i node edges smaller removed
        have first : g.Advances smaller [] := by
          obtain ⟨_, _, rfl⟩ := (removeNode_eq_some_iff ..).1 removed
          refine advances_of_keys rfl fun other stored => ?_
          have erased := OrderedMap.keys_erase g.nodeTable.toOrderedMap id
          exact List.mem_of_mem_filter (erased ▸ stored)
        exact first.trans (ih smaller)
      · exact ih g

theorem advances_removeEdges (g : Graph) (ends : List Endpoints) :
    g.Advances (g.removeEdges ends).1 [] := by
  induction ends generalizing g with
  | nil => exact .refl g
  | cons e rest ih =>
      rw [removeEdges]
      split
      · rename_i edge smaller removed
        have first : g.Advances smaller [] := by
          obtain ⟨_, rfl⟩ := (removeEdge_eq_some_iff ..).1 removed
          exact advances_of_keys rfl fun _ stored => stored
        exact first.trans (ih smaller)
      · exact ih g

/-- The nodes that a growth adds stand behind the others and have the next identities. -/
theorem Grown.advances {names : List String} {links : List Endpoints} (grown : g.Grown h names links) :
    g.Advances h ((h.nodes.drop g.nodes.length).map Node.id) := by
  obtain ⟨new, nodes, ids, _⟩ := grown.nodes_eq
  have added : h.nodes.drop g.nodes.length = new := by rw [nodes, List.drop_left]
  have count : new.length = names.length := by
    simpa only [nodes, List.length_append, Nat.add_left_cancel_iff] using grown.length_nodes
  rw [added]
  exact {
    ids_eq := by
      rw [List.map_map, List.length_map, count]
      exact ids
    counter_eq := by rw [List.length_map, count, grown.counter_eq]
    accounted := fun id stored => by
      rw [← map_id_nodes, nodes, List.map_append, map_id_nodes] at stored
      exact List.mem_append.1 stored }

end Graph

/-- The identities of the nodes that an outcome says were made. -/
def Outcome.made : Outcome → List NodeId
  | .created ns => ns.map Node.id
  | _ => []

def Report.made (r : Report) : List NodeId :=
  match r.result with
  | .ok outcome => outcome.made
  | .error _ => []

namespace Session

variable {s t : Session} {c : Command}

theorem advances_createNodes {ps : List Pattern} {ns : List Node}
    (done : s.createNodes ps = .ok (t, ns)) : s.graph.Advances t.graph (ns.map Node.id) := by
  induction ps generalizing s ns with
  | nil =>
      cases done
      exact .refl _
  | cons p rest ih =>
      simp only [createNodes, Except.bind_eq_ok_iff, Except.mapError_eq_ok_iff] at done
      obtain ⟨g, added, ⟨final, more⟩, created, same⟩ := done
      cases same
      exact (Graph.advances_addNode added).trans (ih created)

theorem advances_createEdges (s : Session) (c : Command) (ps : List Pattern) :
    s.graph.Advances (s.createEdges c ps).1.graph [] := by
  fun_induction s.createEdges c ps with
  | case1 s source relation target rest left right pairs graph edges connected linked final more
      warnings created ih =>
      have first := s.graph.advances_connect relation.attributes pairs
      rw [connected] at first
      have whole := first.trans ih
      rwa [created] at whole
  | case2 => exact .refl _

theorem made_of_runMatch {e : Effect} (done : s.runMatch c = .ok e) : e.outcome.made = [] := by
  cases finds_of_runMatch done <;> rfl

/-- A command other than CLEAR gives the identities that it answers with, and no others. -/
theorem advances_dispatch {e : Effect} (kept : c.keyword ≠ .clear) (done : s.dispatch c = .ok e) :
    s.graph.Advances e.session.graph e.outcome.made := by
  cases carries_of_dispatch done with
  | create keyword created => exact advances_createNodes created
  | createEdge keyword => exact advances_createEdges s c c.patterns
  | matching keyword found =>
      rw [runMatch_graph found, made_of_runMatch found]
      exact .refl s.graph
  | modifyNode keyword flag first second => exact s.graph.advances_changeNodes _ _ _
  | modifyEdge keyword flag first second => exact s.graph.advances_changeEdges _ _ _
  | deleteNode keyword first => exact s.graph.advances_removeNodes _
  | deleteEdge keyword first => exact s.graph.advances_removeEdges _
  | clear keyword => exact absurd keyword kept
  | hasPath keyword first second | shortestPath keyword first second | hasEdge keyword first second
  | commonNeighbors keyword first second | neighbor keyword first | returning keyword
  | showing keyword | visualize keyword => exact .refl s.graph

theorem advances_runCommand (s : Session) (kept : c.keyword ≠ .clear) :
    s.graph.Advances (s.runCommand c).1.graph (s.runCommand c).2.made := by
  rw [runCommand]
  split
  · exact .refl s.graph
  · split
    · exact .refl s.graph
    · rename_i effect done
      exact advances_dispatch kept done

theorem advances_runCommands (s : Session) {cs : List Command} (kept : ∀ c ∈ cs, c.keyword ≠ .clear) :
    s.graph.Advances (s.runCommands cs).1.graph ((s.runCommands cs).2.flatMap Report.made) := by
  induction cs generalizing s with
  | nil => exact .refl s.graph
  | cons c rest ih =>
      exact (advances_runCommand s (kept c (List.mem_cons_self ..))).trans
        (ih _ fun d hd => kept d (List.mem_cons_of_mem _ hd))

theorem advances_runStatements (s : Session) {statements : List (Except ParseError (List Command))}
    (kept : ∀ cs, .ok cs ∈ statements → ∀ c ∈ cs, c.keyword ≠ .clear) :
    s.graph.Advances (s.runStatements statements).1.graph
      ((s.runStatements statements).2.flatMap Report.made) := by
  induction statements generalizing s with
  | nil => exact .refl s.graph
  | cons statement rest ih =>
      have others := fun cs h => kept cs (List.mem_cons_of_mem _ h)
      cases statement with
      | error e => exact ih s others
      | ok cs =>
          have first := advances_runCommands s (kept cs (List.mem_cons_self ..))
          have whole := first.trans (ih _ others)
          rw [runStatements, List.flatMap_append]
          exact whole

/-- What may happen to a session: something is given to it, nodes or edges are removed directly, or it
is saved and opened again. -/
inductive Act where
  | given (input : Input)
  | removeNodes (ids : List NodeId)
  | removeEdges (ends : List Endpoints)
  | reopen

/-- The commands that come with an act. -/
def Act.commands : Act → List Command
  | .given (.command c) => [c]
  | .given (.text text) => (Statement.parseText text).flatMap fun r => r.toOption.getD []
  | _ => []

/-- The session behind an act. One that cannot be opened again goes on as it is. -/
def act (pack : List UInt8 → List UInt8) (unpack : List UInt8 → Option (List UInt8)) (s : Session) :
    Act → Session
  | .given input => s.feed input
  | .removeNodes ids => (s.removeNodes ids).1
  | .removeEdges ends => { s with graph := (s.graph.removeEdges ends).1 }
  | .reopen =>
      match Snapshot.decodeWith unpack (Snapshot.encodeWith pack s.graph s.graph.counter) with
      | .ok (g, _) => ofGraph g
      | .error _ => s

/-- The identities that an act gives to new nodes: those of the nodes that the reports say were
made, or those of the nodes that an import puts behind the others. -/
def assigned (s : Session) : Act → List NodeId
  | .given (.command c) => (s.runCommand c).2.made
  | .given (.text text) => (s.execute text).2.flatMap Report.made
  | .given (.edges records) =>
      ((s.feed (.edges records)).graph.nodes.drop s.graph.nodes.length).map Node.id
  | _ => []

/-- Says that the image of the session's graph is short enough to be packed. -/
def Fits (s : Session) : Prop := (Image.ofGraph s.graph s.graph.counter).write.length < 2 ^ 32

instance (s : Session) : Decidable s.Fits := inferInstanceAs (Decidable (_ < _))

section Runs

variable (pack : List UInt8 → List UInt8) (unpack : List UInt8 → Option (List UInt8))

def acts (s : Session) (as : List Act) : Session := as.foldl (act pack unpack) s

def assignedAll (s : Session) : List Act → List NodeId
  | [] => []
  | a :: as => s.assigned a ++ (s.act pack unpack a).assignedAll as

end Runs

variable {pack : List UInt8 → List UInt8} {unpack : List UInt8 → Option (List UInt8)} {a : Act}
  {as : List Act}

theorem sound_act (sound : s.graph.Sound) (a : Act) : (s.act pack unpack a).graph.Sound := by
  cases a with
  | given input => exact feed_sound sound input
  | removeNodes ids => exact sound.removeNodes ids
  | removeEdges ends => exact sound.removeEdges ends
  | reopen =>
      rw [act]
      split
      · rename_i read
        exact (Snapshot.sound_of_decode read).1
      · exact sound

theorem advances_act (packing : Snapshot.Packing pack unpack) (sound : s.graph.Sound)
    (kept : ∀ c ∈ a.commands, c.keyword ≠ .clear) (fits : a = .reopen → s.Fits) :
    s.graph.Advances (s.act pack unpack a).graph (s.assigned a) := by
  cases a with
  | given input =>
      cases input with
      | command c => exact advances_runCommand s (kept c (List.mem_singleton.2 rfl))
      | text text =>
          have commands (cs : List Command) (listed : .ok cs ∈ Statement.parseText text) :
              ∀ c ∈ cs, c.keyword ≠ .clear := fun c hc =>
            kept c (List.mem_flatMap.2 ⟨.ok cs, listed, hc⟩)
          rw [act, feed, assigned, execute, executeWords]
          exact advances_runStatements s commands
      | edges records =>
          rw [assigned, act, feed]
          split
          · rename_i done
            obtain ⟨names, links, grown⟩ := Graph.importRecords_grown sound done
            exact grown.advances
          · rw [List.drop_length]
            exact .refl s.graph
  | removeNodes ids => exact s.graph.advances_removeNodes ids
  | removeEdges ends => exact s.graph.advances_removeEdges ends
  | reopen =>
      obtain ⟨g, read, agrees⟩ := Snapshot.decode_agrees packing sound (fits rfl)
      rw [act, read]
      exact Graph.advances_of_keys agrees.counter_eq fun id stored => agrees.nodeTable_eq ▸ stored

/-- Each act of a run advances from where the acts before it stopped. -/
theorem advances_acts (packing : Snapshot.Packing pack unpack) (sound : s.graph.Sound)
    (kept : ∀ a ∈ as, ∀ c ∈ a.commands, c.keyword ≠ .clear)
    (fits : ∀ before after, before ++ .reopen :: after = as → (s.acts pack unpack before).Fits) :
    (s.acts pack unpack as).graph.Sound ∧
      s.graph.Advances (s.acts pack unpack as).graph (s.assignedAll pack unpack as) := by
  induction as generalizing s with
  | nil => exact ⟨sound, .refl s.graph⟩
  | cons a as ih =>
      have first := advances_act packing sound (kept a (List.mem_cons_self ..))
        fun same => fits [] as (same ▸ rfl)
      obtain ⟨last, rest⟩ := ih (sound_act sound a) (fun b hb => kept b (List.mem_cons_of_mem _ hb))
        fun before after split => fits (a :: before) after (congrArg (a :: ·) split)
      exact ⟨last, first.trans rest⟩

/-- In a run without CLEAR every new node gets an identity above all that were given before it and
above those of all nodes at the start; the counter moves once for each of them. At every point of the
run it has passed the identity of every node, and each node is one of the start or got its identity
in the run. -/
theorem identities_increase (packing : Snapshot.Packing pack unpack) (reached : Reachable s)
    (kept : ∀ a ∈ as, ∀ c ∈ a.commands, c.keyword ≠ .clear)
    (fits : ∀ before after, before ++ .reopen :: after = as → (s.acts pack unpack before).Fits) :
    ((s.assignedAll pack unpack as).Pairwise fun a b => a.value < b.value) ∧
      (∀ n ∈ s.graph.nodes, ∀ id ∈ s.assignedAll pack unpack as, n.id.value < id.value) ∧
      (s.acts pack unpack as).graph.counter.toNat =
        s.graph.counter.toNat + (s.assignedAll pack unpack as).length ∧
      ∀ before, before <+: as → ∀ n ∈ (s.acts pack unpack before).graph.nodes,
        n.id.value ≤ (s.acts pack unpack before).graph.counter ∧
          ((∃ m ∈ s.graph.nodes, m.id = n.id) ∨ n.id ∈ s.assignedAll pack unpack before) := by
  obtain ⟨_, whole⟩ := advances_acts packing reached.sound kept fits
  have stored (g : Graph) {n : Node} (hn : n ∈ g.nodes) : n.id ∈ g.nodeTable.keys :=
    g.map_id_nodes ▸ List.mem_map_of_mem hn
  refine ⟨whole.increasing, fun n hn id mem => ?_, whole.counter_eq, ?_⟩
  · exact UInt64.lt_of_le_of_lt (reached.sound.le_counter n.id (stored _ hn)) (whole.above mem)
  · rintro before ⟨rest, rfl⟩ n hn
    obtain ⟨sound, part⟩ := advances_acts packing reached.sound
      (fun a ha => kept a (List.mem_append_left rest ha)) fun first second split =>
        fits first (second ++ rest) (by rw [← split, List.append_assoc, List.cons_append])
    have listed := stored _ hn
    refine ⟨sound.le_counter n.id listed, (part.accounted n.id listed).imp_left fun old => ?_⟩
    rw [← Graph.map_id_nodes] at old
    exact List.mem_map.1 old

/-- All nodes are gone when the session is saved and opened again. -/
theorem identities_increase_reopened :
    let as : List Act := [.given (.text "CREATE n: x id:a n: y ; DELETENODE n: y id:a ;"),
      .removeNodes [⟨2⟩], .reopen, .given (.edges [.fields ["a", "b"]]),
      .given (.text "CREATE n: z ;")]
    let run := (∅ : Session).acts Block.pack Block.unpack?
    let ids := (∅ : Session).assignedAll Block.pack Block.unpack? as
    (∀ a ∈ as, ∀ c ∈ a.commands, c.keyword ≠ .clear) ∧
      (∀ before after, before ++ .reopen :: after = as → (run before).Fits) ∧
      ids = [⟨1⟩, ⟨2⟩, ⟨3⟩, ⟨4⟩, ⟨5⟩] ∧ (ids.Pairwise fun a b => a.value < b.value) ∧
      ∀ before, before <+: as → ∀ n ∈ (run before).graph.nodes,
        n.id.value ≤ (run before).graph.counter := by
  intro as run ids
  have kept : ∀ a ∈ as, ∀ c ∈ a.commands, c.keyword ≠ .clear := by decide +kernel
  have fits : ∀ before after, before ++ .reopen :: after = as → (run before).Fits := by
    intro before after split
    change _ = [_, _, _, _, _] at split
    rcases before with _ | ⟨first, _ | ⟨second, _ | ⟨third, before⟩⟩⟩
    · cases split
    · cases split
    · cases split
      decide +kernel
    · have rest : before ++ .reopen :: after = _ :=
        (List.cons.inj (List.cons.inj (List.cons.inj split).2).2).2
      have again : Act.reopen ∈ before ++ .reopen :: after := List.mem_append_right _ (.head _)
      rw [rest] at again
      simp at again
  obtain ⟨increasing, _, _, points⟩ := identities_increase Snapshot.packing_block .empty kept fits
  exact ⟨kept, fits, by decide +kernel, increasing,
    fun before start n hn => (points before start n hn).1⟩

end Session
end WordGraph
