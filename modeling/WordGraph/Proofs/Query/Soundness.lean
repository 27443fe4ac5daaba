import WordGraph.Proofs.EdgeList.Replaying
import WordGraph.Proofs.Query.Carrying

/-!
Sessions keep their graphs sound: a command does, whether it is carried out or refused, and so does
the import of an edge list. So the graph of every session that starts from nothing is sound.
-/

namespace WordGraph

namespace Graph

variable {g : Graph}

theorem Sound.connect (h : g.Sound) (attributes : Attributes) (pairs : List Endpoints) :
    (g.connect attributes pairs).1.Sound := by
  induction pairs generalizing g with
  | nil => exact h
  | cons e rest ih =>
      rw [Graph.connect]
      split
      · rename_i linked added
        exact ih (h.addEdge added)
      · exact ih h

theorem Sound.changeNodes (h : g.Sound) (add : Bool) (update : Attributes) (ids : List NodeId) :
    (g.changeNodes add update ids).1.Sound := by
  induction ids generalizing g with
  | nil => exact h
  | cons id rest ih => exact ih (h.modifyNode id _)

theorem Sound.changeEdges (h : g.Sound) (add : Bool) (update : Attributes) (ends : List Endpoints) :
    (g.changeEdges add update ends).1.Sound := by
  induction ends generalizing g with
  | nil => exact h
  | cons e rest ih => exact ih (h.modifyEdge e.1 e.2 _)

theorem Sound.removeNodes (h : g.Sound) (ids : List NodeId) : (g.removeNodes ids).1.Sound := by
  induction ids generalizing g with
  | nil => exact h
  | cons id rest ih =>
      rw [Graph.removeNodes]
      split
      · rename_i removed
        exact ih (h.removeNode removed)
      · exact ih h

theorem Sound.removeEdges (h : g.Sound) (ends : List Endpoints) : (g.removeEdges ends).1.Sound := by
  induction ends generalizing g with
  | nil => exact h
  | cons e rest ih =>
      rw [Graph.removeEdges]
      split
      · rename_i removed
        exact ih (h.removeEdge removed)
      · exact ih h

end Graph

namespace Session

variable {s t : Session}

theorem createNodes_sound (h : s.graph.Sound) {ps : List Pattern} {ns : List Node}
    (done : s.createNodes ps = .ok (t, ns)) : t.graph.Sound := by
  induction ps generalizing s ns with
  | nil =>
      cases done
      exact h
  | cons p rest ih =>
      simp only [createNodes, Except.bind_eq_ok_iff, Except.mapError_eq_ok_iff] at done
      obtain ⟨g, added, ⟨final, more⟩, created, same⟩ := done
      cases same
      exact ih (h.addNode added) created

theorem createEdges_sound (h : s.graph.Sound) (c : Command) (ps : List Pattern) :
    (s.createEdges c ps).1.graph.Sound := by
  fun_induction s.createEdges c ps with
  | case1 s source relation target rest left right pairs graph edges connected linked final more
      warnings created ih =>
      have grown : graph.Sound := by
        have := h.connect relation.attributes pairs
        rwa [connected] at this
      have whole := ih grown
      rwa [created] at whole
  | case2 => exact h

theorem foldl_bind_graph (s : Session) (b : Binding) (ps : List Pattern) :
    (ps.foldl (fun s p => s.bind p.identifier b) s).graph = s.graph := by
  rw [foldl_bind_eq]

theorem runMatch_graph {c : Command} {e : Effect} (done : s.runMatch c = .ok e) :
    e.session.graph = s.graph := by
  cases finds_of_runMatch done with
  | nodes patterns role | edges patterns role | hop patterns | nothing warnings => rfl
  | chain warnings => exact foldl_bind_graph ..

theorem dispatch_sound (h : s.graph.Sound) {c : Command} {e : Effect}
    (done : s.dispatch c = .ok e) : e.session.graph.Sound := by
  cases carries_of_dispatch done with
  | create keyword created => exact createNodes_sound h created
  | createEdge keyword => exact createEdges_sound h c c.patterns
  | matching keyword found => exact runMatch_graph found ▸ h
  | modifyNode keyword flag first second => exact h.changeNodes _ _ _
  | modifyEdge keyword flag first second => exact h.changeEdges _ _ _
  | deleteNode keyword first => exact h.removeNodes _
  | deleteEdge keyword first => exact h.removeEdges _
  | clear keyword => exact Graph.sound_empty
  | hasPath keyword first second | shortestPath keyword first second | hasEdge keyword first second
  | commonNeighbors keyword first second | neighbor keyword first | returning keyword
  | showing keyword | visualize keyword => exact h

theorem runCommand_sound (h : s.graph.Sound) (c : Command) : (s.runCommand c).1.graph.Sound := by
  rw [runCommand]
  split
  · exact h
  · split
    · exact h
    · rename_i effect done
      exact dispatch_sound h done

theorem runCommands_sound (h : s.graph.Sound) (cs : List Command) :
    (s.runCommands cs).1.graph.Sound := by
  induction cs generalizing s with
  | nil => exact h
  | cons c rest ih => exact ih (runCommand_sound h c)

theorem runStatements_sound (h : s.graph.Sound) (statements : List (Except ParseError (List Command))) :
    (s.runStatements statements).1.graph.Sound := by
  induction statements generalizing s with
  | nil => exact h
  | cons statement rest ih =>
      cases statement with
      | error e => exact ih h
      | ok cs => exact ih (runCommands_sound h cs)

theorem execute_sound (h : s.graph.Sound) (text : String) : (s.execute text).1.graph.Sound := by
  rw [execute, executeWords]
  exact runStatements_sound h _

/-- What a session can be given: a single command, text, or the records of an edge list. -/
inductive Input where
  | command (c : Command)
  | text (text : String)
  | edges (records : List Record)

/-- The session behind an input. The import of an edge list starts a new one over the graph that it
leaves; if it breaks off there is none, and the old one stands for it. -/
def feed (s : Session) : Input → Session
  | .command c => (s.runCommand c).1
  | .text text => (s.execute text).1
  | .edges records =>
      match EdgeList.importRecords s.graph records with
      | .ok (g, _) => .ofGraph g
      | .error _ => s

/-- The session that a sequence of inputs makes of the empty one. -/
def afterAll (inputs : List Input) : Session := inputs.foldl feed ∅

theorem feed_sound {s : Session} (h : s.graph.Sound) (input : Input) : (s.feed input).graph.Sound := by
  cases input with
  | command c => exact runCommand_sound h c
  | text text =>
      rw [feed]
      exact execute_sound h text
  | edges records =>
      rw [feed]
      split
      · rename_i done
        obtain ⟨_, _, grown⟩ := Graph.importRecords_grown h done
        exact grown.sound
      · exact h

theorem afterAll_sound (inputs : List Input) : (afterAll inputs).graph.Sound := by
  have key (s : Session) (h : s.graph.Sound) : (inputs.foldl feed s).graph.Sound := by
    induction inputs generalizing s with
    | nil => exact h
    | cons input rest ih => exact ih _ (feed_sound h input)
  exact key ∅ Graph.sound_empty

end Session
end WordGraph
