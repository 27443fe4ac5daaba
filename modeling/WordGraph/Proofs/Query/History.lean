import WordGraph.Proofs.Query.Agreement
import WordGraph.Proofs.Query.Anchoring

/-!
What a name stands for, told from the history of a session. A command that is carried out binds names,
removes nodes or clears everything, and which of these it does is known from its answer and the graph
before it. A RETURN answers with the value of the last event that bound a name, unless what came later
removed a node that the value mentions or cleared everything.
-/

namespace WordGraph

/-- What becomes of the names when a command is carried out. -/
inductive NameEvent where
  | bound (name : String) (value : Binding)
  | removed (ids : List NodeId)
  | cleared

/-- The events of a command over a graph that is answered so. The patterns are bound in this order; the
nodes at the ends of matched edges are each bound once. -/
def Outcome.events (g : Graph) (c : Command) : Outcome → List NameEvent
  | .created ns => List.zipWith (fun p n => .bound p.identifier (.node n)) c.patterns ns
  | .edgesCreated _ => (Hop.ofPatterns c.patterns).map fun h =>
      .bound h.relation.identifier (.edges ((Session.ofGraph g).linked c h))
  | .nodes ns => c.patterns.map fun p => .bound p.identifier (.nodes ns)
  | .edges es =>
      match c.patterns with
      | [source, relation, target] =>
          [.bound source.identifier (.nodes ((es.map Edge.source).eraseDups.filterMap g.node?)),
            .bound target.identifier (.nodes ((es.map Edge.target).eraseDups.filterMap g.node?)),
            .bound relation.identifier (.edges es)]
      | ps => ps.map fun p => .bound p.identifier (.edges es)
  | .chain fs => c.patterns.map fun p => .bound p.identifier (.chain fs)
  | .deleted view => [.removed (view.nodes.map Node.id)]
  | .cleared => [.cleared]
  | _ => []

def Report.events (g : Graph) (c : Command) (r : Report) : List NameEvent :=
  match r.result with
  | .ok outcome => outcome.events g c
  | .error _ => []

/-- The events of commands that are carried out one after another. -/
def Session.history (s : Session) : List Command → List NameEvent
  | [] => []
  | c :: rest => (s.runCommand c).2.events s.graph c ++ (s.runCommand c).1.history rest

namespace NameEvent

/-- Says that an event leaves in place what a name is bound to. -/
def Spares (name : String) (value : Binding) : NameEvent → Prop
  | .bound other _ => other ≠ name
  | .removed ids => ∀ id ∈ value.ids, id ∉ ids
  | .cleared => False

/-- Says that the last event that bound this name bound it to this value, and that nothing since then
has dropped it. -/
def Remembers (events : List NameEvent) (name : String) (value : Binding) : Prop :=
  ∃ earlier later, events = earlier ++ .bound name value :: later ∧ ∀ e ∈ later, e.Spares name value

theorem remembers_concat_iff (events : List NameEvent) (e : NameEvent) (name : String)
    (value : Binding) :
    Remembers (events ++ [e]) name value ↔
      e = .bound name value ∨ Remembers events name value ∧ e.Spares name value := by
  constructor
  · intro ⟨earlier, later, same, spared⟩
    cases List.eq_nil_or_concat later with
    | inl last =>
        subst last
        exact .inl (List.append_singleton_inj.1 same).2
    | inr more =>
        obtain ⟨between, x, rfl⟩ := more
        rw [List.concat_eq_append, ← List.cons_append, ← List.append_assoc] at same
        obtain ⟨front, rfl⟩ := List.append_singleton_inj.1 same
        refine .inr ⟨⟨earlier, between, front, fun y hy => spared y ?_⟩, spared e ?_⟩
        · simp [hy]
        · simp
  · intro h
    cases h with
    | inl last => exact ⟨events, [], by rw [last], fun x hx => nomatch hx⟩
    | inr kept =>
        obtain ⟨⟨earlier, later, rfl, spared⟩, last⟩ := kept
        refine ⟨earlier, later ++ [e], by simp, fun x hx => ?_⟩
        cases List.mem_append.1 hx with
        | inl before => exact spared x before
        | inr behind => exact List.mem_singleton.1 behind ▸ last

def apply (bs : Bindings) : NameEvent → Bindings
  | .bound name value => bs.insert name value
  | .removed ids => bs.forget ids
  | .cleared => ∅

theorem find?_apply_iff (bs : Bindings) (e : NameEvent) (name : String) (value : Binding) :
    (apply bs e).find? name = some value ↔
      e = .bound name value ∨ bs.find? name = some value ∧ e.Spares name value := by
  cases e with
  | bound other b =>
      rw [apply, OrderedMap.find?_insert]
      by_cases same : other = name
      · simp [same, Spares]
      · simp [same, Spares]
  | removed ids => simp [apply, Bindings.find?_forget_eq_some_iff, Spares]
  | cleared => simp [apply, Spares]

/-- A table that begins empty holds what the events remember. -/
theorem find?_foldl_apply_iff (events : List NameEvent) (name : String) (value : Binding) :
    (events.foldl apply ∅).find? name = some value ↔ Remembers events name value := by
  induction events using List.reverseRecOn with
  | nil =>
      constructor
      · intro found
        cases found
      · intro ⟨earlier, later, same, _⟩
        simp at same
  | append_singleton events e ih =>
      rw [List.foldl_append, List.foldl_cons, List.foldl_nil, find?_apply_iff, ih,
        remembers_concat_iff]

/-- What is found afterwards does not depend on the places in the table. -/
theorem find?_foldl_apply_congr {bs cs : Bindings} (same : ∀ name, bs.find? name = cs.find? name)
    (events : List NameEvent) (name : String) :
    (events.foldl apply bs).find? name = (events.foldl apply cs).find? name := by
  induction events generalizing bs cs with
  | nil => exact same name
  | cons e events ih =>
      refine ih fun other => Option.ext fun value => ?_
      rw [find?_apply_iff, find?_apply_iff, same]

end NameEvent

namespace Session

variable {s t : Session} {c : Command}

section Tables

theorem createNodes_bindings {ps : List Pattern} {ns : List Node}
    (done : s.createNodes ps = .ok (t, ns)) :
    t.bindings = (List.zipWith (fun p n => NameEvent.bound p.identifier (.node n)) ps ns).foldl
      NameEvent.apply s.bindings := by
  induction ps generalizing s ns with
  | nil =>
      cases done
      rfl
  | cons p rest ih =>
      simp only [createNodes, Except.bind_eq_ok_iff, Except.mapError_eq_ok_iff] at done
      obtain ⟨g, added, ⟨final, more⟩, created, same⟩ := done
      cases same
      exact ih created

theorem foldl_apply_bound {α : Type} (xs : List α) (name : α → String) (value : α → Binding)
    (bs : Bindings) :
    (xs.map fun x => NameEvent.bound (name x) (value x)).foldl NameEvent.apply bs =
      xs.foldl (fun bs x => bs.insert (name x) (value x)) bs := List.foldl_map ..

theorem forget_nil (bs : Bindings) : bs.forget [] = bs := by
  apply OrderedMap.ext_entries
  simp [Bindings.forget, OrderedMap.filter, Binding.mentions]

theorem runMatch_bindings {e : Effect} (done : s.runMatch c = .ok e) :
    e.session.bindings = (e.outcome.events s.graph c).foldl NameEvent.apply s.bindings := by
  cases finds_of_runMatch done with
  | nodes patterns role =>
      simp only [Outcome.events, patterns]
      rfl
  | edges patterns role =>
      simp only [Outcome.events, patterns]
      rfl
  | hop patterns =>
      rw [matchEdge_eq]
      simp only [Outcome.events, patterns]
      rfl
  | nothing warnings => rfl
  | chain warnings =>
      rw [foldl_bind_eq]
      exact (foldl_apply_bound ..).symm

/-- The nodes that a DELETENODE answers with are those that it was to delete. -/
theorem deleted_ids (s : Session) (c : Command) (p : Pattern) :
    (s.graph.removeNodes (s.matched c p).ids).2.nodes.map Node.id = (s.matched c p).ids :=
  (Graph.nodes_removeNodes (matched_keeps s c p).nodup fun _ => mem_keys_of_matched).1

theorem dispatch_bindings {e : Effect} (done : s.dispatch c = .ok e) :
    e.session.bindings = (e.outcome.events s.graph c).foldl NameEvent.apply s.bindings := by
  cases carries_of_dispatch done with
  | create keyword created => exact createNodes_bindings created
  | createEdge keyword =>
      obtain ⟨_, _, bound⟩ := s.createEdges_spec c c.patterns
      exact bound.trans (foldl_apply_bound ..).symm
  | matching keyword found => exact runMatch_bindings found
  | @deleteNode target keyword first =>
      have gone := deleted_ids s c target
      simp only [Outcome.events, gone]
      rfl
  | deleteEdge keyword first => exact (forget_nil s.bindings).symm
  | clear keyword => rfl
  | modifyNode keyword flag first second | modifyEdge keyword flag first second => rfl
  | hasPath keyword first second | shortestPath keyword first second | hasEdge keyword first second
  | commonNeighbors keyword first second | neighbor keyword first | returning keyword
  | showing keyword | visualize keyword => rfl

theorem runCommand_bindings (s : Session) (c : Command) :
    (s.runCommand c).1.bindings =
      ((s.runCommand c).2.events s.graph c).foldl NameEvent.apply s.bindings := by
  rw [runCommand]
  split
  · rfl
  · split
    · rfl
    · rename_i effect done
      exact dispatch_bindings done

theorem runCommands_bindings (s : Session) (cs : List Command) :
    (s.runCommands cs).1.bindings = (s.history cs).foldl NameEvent.apply s.bindings := by
  induction cs generalizing s with
  | nil => rfl
  | cons c rest ih =>
      rw [history, List.foldl_append, ← runCommand_bindings]
      exact ih (s.runCommand c).1

end Tables

section Order

/-- Says that two sessions cannot be told apart by their graphs, nor by what a name is bound to. -/
structure Alike (s t : Session) : Prop where
  graph : s.graph.Agrees t.graph
  binding?_eq : ∀ name, s.binding? name = t.binding? name

theorem events_of_agrees {g h : Graph} (a : g.Agrees h) (c : Command) (r : Report) :
    r.events g c = r.events h c := by
  have linked (hop : Hop) : (ofGraph g).linked c hop = (ofGraph h).linked c hop := by
    simp only [Session.linked, matched_eq (s := ofGraph g) (t := ofGraph h) a]
  have found : g.node? = h.node? := funext a.node?_eq
  rw [Report.events, Report.events]
  cases r.result with
  | error e => rfl
  | ok outcome => cases outcome <;> simp only [Outcome.events, linked, found]

/-- What a RETURN answers: it looks every name up and leaves the session as it is. -/
theorem runCommand_returning (s : Session) {c : Command} (returning : c.keyword = .returning)
    (accepted : c.check = .ok ()) :
    s.runCommand c = (s, ⟨some .returning,
      .ok (.returned (c.patterns.map fun p => (p.identifier, s.binding? p.identifier))),
      ((c.patterns.map fun p => (p.identifier, s.binding? p.identifier)).filter (·.2.isNone)).map
        fun e => .unbound e.1⟩) := by
  have done : s.dispatch c = .ok ⟨s,
      .returned (c.patterns.map fun p => (p.identifier, s.binding? p.identifier)),
      ((c.patterns.map fun p => (p.identifier, s.binding? p.identifier)).filter (·.2.isNone)).map
        fun e => .unbound e.1⟩ := by
    rw [dispatch.eq_def, returning]
  rw [runCommand_of_check accepted done, returning]

theorem Alike.runCommand (a : s.Alike t) (c : Command) :
    (s.runCommand c).2 = (t.runCommand c).2 ∧ (s.runCommand c).1.Alike (t.runCommand c).1 := by
  by_cases returning : c.keyword = .returning
  · cases verdict : c.check with
    | error fault =>
        rw [runCommand_of_fault verdict, runCommand_of_fault verdict]
        exact ⟨rfl, a⟩
    | ok _ =>
        rw [s.runCommand_returning returning verdict, t.runCommand_returning returning verdict]
        simp only [a.binding?_eq]
        exact ⟨trivial, a⟩
  · obtain ⟨graphs, reports⟩ := runCommand_agrees a.graph returning
    refine ⟨reports, graphs, fun name => ?_⟩
    rw [binding?, binding?, runCommand_bindings, runCommand_bindings, reports,
      events_of_agrees a.graph]
    exact NameEvent.find?_foldl_apply_congr a.binding?_eq _ name

theorem Alike.runCommands (a : s.Alike t) (cs : List Command) :
    (s.runCommands cs).2 = (t.runCommands cs).2 := by
  induction cs generalizing s t with
  | nil => rfl
  | cons c rest ih =>
      obtain ⟨report, next⟩ := a.runCommand c
      exact congrArg₂ List.cons report (ih next)

theorem alike_of_perm (graph : s.graph = t.graph)
    (reordered : s.bindings.entries.Perm t.bindings.entries) : s.Alike t where
  graph := graph ▸ .refl _
  binding?_eq name := Option.ext fun value => by
    rw [binding?, binding?, OrderedMap.find?_eq_some_iff, OrderedMap.find?_eq_some_iff,
      reordered.mem_iff]

end Order

/-- Behind any commands over any graph, a RETURN answers every name with what the history remembers of
it, and warns of every name of which it remembers nothing. The places in the table do not matter, to
this or to any later command. -/
theorem runCommand_remembers (g : Graph) (cs : List Command) (s : Session)
    (reached : ((ofGraph g).runCommands cs).1 = s) (c : Command) (returning : c.keyword = .returning)
    (accepted : c.check = .ok ()) :
    (∃ entries : List (String × Option Binding),
      s.runCommand c = (s, ⟨some .returning, .ok (.returned entries),
        (entries.filter (·.2.isNone)).map fun e => .unbound e.1⟩) ∧
      entries.map Prod.fst = c.patterns.map Pattern.identifier ∧
      ∀ e ∈ entries, ∀ value,
        e.2 = some value ↔ NameEvent.Remembers ((ofGraph g).history cs) e.1 value) ∧
    ∀ t : Session, t.graph = s.graph → t.bindings.entries.Perm s.bindings.entries →
      ∀ ds, (t.runCommands ds).2 = (s.runCommands ds).2 := by
  refine ⟨⟨_, s.runCommand_returning returning accepted, ?_, fun e he value => ?_⟩,
    fun t graph reordered ds => (alike_of_perm graph reordered).runCommands ds⟩
  · rw [List.map_map]
    rfl
  · obtain ⟨p, _, rfl⟩ := List.mem_map.1 he
    subst reached
    rw [binding?, runCommands_bindings]
    exact NameEvent.find?_foldl_apply_iff ..

/-- A name that is bound twice, and one whose only node has been deleted. -/
theorem runCommand_remembers_rebound :
    ∃ s, ((ofGraph ∅).runCommands [
          { keyword := .create, patterns := [⟨.node, "y", ∅⟩] },
          { keyword := .matching, patterns := [⟨.node, "x", ∅⟩] },
          { keyword := .deleteNode, patterns := [⟨.node, "z", ∅⟩] },
          { keyword := .create, patterns := [⟨.node, "x", ∅⟩, ⟨.node, "x", ∅⟩] }]).1 = s ∧
      (s.runCommand { keyword := .returning, patterns := [⟨.node, "x", ∅⟩, ⟨.node, "y", ∅⟩] }).2 =
        ⟨some .returning, .ok (.returned [("x", some (.node ⟨⟨3⟩, ∅⟩)), ("y", none)]),
          [.unbound "y"]⟩ ∧
      NameEvent.Remembers ((ofGraph ∅).history [
          { keyword := .create, patterns := [⟨.node, "y", ∅⟩] },
          { keyword := .matching, patterns := [⟨.node, "x", ∅⟩] },
          { keyword := .deleteNode, patterns := [⟨.node, "z", ∅⟩] },
          { keyword := .create, patterns := [⟨.node, "x", ∅⟩, ⟨.node, "x", ∅⟩] }]) "x"
        (.node ⟨⟨3⟩, ∅⟩) := by
  let cs : List Command := [
    { keyword := .create, patterns := [⟨.node, "y", ∅⟩] },
    { keyword := .matching, patterns := [⟨.node, "x", ∅⟩] },
    { keyword := .deleteNode, patterns := [⟨.node, "z", ∅⟩] },
    { keyword := .create, patterns := [⟨.node, "x", ∅⟩, ⟨.node, "x", ∅⟩] }]
  obtain ⟨⟨entries, run, _, meaning⟩, _⟩ := runCommand_remembers ∅ cs _ rfl
    { keyword := .returning, patterns := [⟨.node, "x", ∅⟩, ⟨.node, "y", ∅⟩] } rfl rfl
  have report := congrArg Prod.snd run
  have result := congrArg Report.result report
  cases result
  exact ⟨_, rfl, rfl, (meaning _ (List.mem_cons_self ..) _).1 rfl⟩

end Session
end WordGraph
