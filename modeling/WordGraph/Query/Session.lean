import WordGraph.Graph.Path
import WordGraph.Query.Outcome

/-!
A session is a graph with the names bound to earlier results. It carries out commands one after
another; a command that is refused leaves it as it was.
-/

namespace WordGraph

structure Session where
  graph : Graph
  bindings : Bindings

structure Effect where
  session : Session
  outcome : Outcome
  warnings : List Warning := []

namespace Graph

def view (g : Graph) : GraphView := ⟨g.nodes, g.edges⟩

def change (add : Bool) (attributes change : Attributes) : Attributes :=
  if add then attributes.merge change else attributes.without change

/-- Puts an edge between each of the pairs that are nodes, and lists the edges put. -/
def connect (g : Graph) (attributes : Attributes) : List Endpoints → Graph × List Edge
  | [] => (g, [])
  | e :: rest =>
      match g.addEdge e.1 e.2 attributes with
      | .ok linked =>
          let (final, edges) := linked.connect attributes rest
          (final, ⟨e.1, e.2, attributes⟩ :: edges)
      | .error _ => g.connect attributes rest

/-- Changes the nodes with these identities and gives them back as they are then. -/
def changeNodes (g : Graph) (add : Bool) (update : Attributes) : List NodeId → Graph × List Node
  | [] => (g, [])
  | id :: rest =>
      let changed := g.modifyNode id (change add · update)
      let (final, nodes) := changed.changeNodes add update rest
      (final, (changed.node? id).toList ++ nodes)

def changeEdges (g : Graph) (add : Bool) (update : Attributes) : List Endpoints → Graph × List Edge
  | [] => (g, [])
  | e :: rest =>
      let changed := g.modifyEdge e.1 e.2 (change add · update)
      let (final, edges) := changed.changeEdges add update rest
      (final, (changed.edge? e.1 e.2).toList ++ edges)

/-- Removes the nodes with these identities and their edges; those that are no nodes are skipped. -/
def removeNodes (g : Graph) : List NodeId → Graph × GraphView
  | [] => (g, ⟨[], []⟩)
  | id :: rest =>
      match g.removeNode id with
      | some (node, edges, smaller) =>
          let (final, removed) := smaller.removeNodes rest
          (final, ⟨node :: removed.nodes, edges ++ removed.edges⟩)
      | none => g.removeNodes rest

def removeEdges (g : Graph) : List Endpoints → Graph × List Edge
  | [] => (g, [])
  | e :: rest =>
      match g.removeEdge e.1 e.2 with
      | some (edge, smaller) =>
          let (final, edges) := smaller.removeEdges rest
          (final, edge :: edges)
      | none => g.removeEdges rest

end Graph

namespace Session

def empty : Session := ⟨∅, ∅⟩

instance : EmptyCollection Session := ⟨empty⟩
instance : Inhabited Session := ⟨empty⟩

def ofGraph (g : Graph) : Session := ⟨g, ∅⟩

def bind (s : Session) (identifier : String) (b : Binding) : Session :=
  { s with bindings := s.bindings.insert identifier b }

def binding? (s : Session) (identifier : String) : Option Binding := s.bindings.find? identifier

def removeNodes (s : Session) (ids : List NodeId) : Session × GraphView :=
  let (graph, removed) := s.graph.removeNodes ids
  (⟨graph, s.bindings.forget ids⟩, removed)

/-- The nodes with the filter's attributes, narrowed by a group of predicates if there is one. -/
def filtered (s : Session) (filter : Attributes) (group : Option PredicateGroup) : Filtered :=
  match group with
  | some g => g.filter (s.graph.nodesWith filter)
  | none => { nodes := s.graph.nodesWith filter }

def matched (s : Session) (c : Command) (p : Pattern) : Filtered :=
  s.filtered p.attributes (c.group? p.identifier)

/-- The nodes to which predicates restrict a pattern; none if no predicate is about it. -/
def allowed (s : Session) (c : Command) (p : Pattern) : Allowed × List Warning :=
  match c.group? p.identifier with
  | some _ => (some (s.matched c p).ids, (s.matched c p).warnings)
  | none => (none, [])

def patternAt (c : Command) (index : Nat) : Except Error Pattern :=
  match c.patterns[index]? with
  | some p => .ok p
  | none => .error (.query (.noPatternAt index))

/-- Every pair of a node that the first pattern selects with one that the second selects. -/
def nodePairs (s : Session) (c : Command) : Except Error (List Endpoints × List Warning) := do
  let left := s.matched c (← patternAt c 0)
  let right := s.matched c (← patternAt c 1)
  return (left.ids.flatMap fun a => right.ids.map fun b => (a, b), left.warnings ++ right.warnings)

/-- Answers a question about every pair of nodes that the two patterns select. -/
def askPairs {α : Type} (s : Session) (c : Command) (answer : NodeId → NodeId → α)
    (outcome : List (PairAnswer α) → Outcome) : Except Error Effect := do
  let (pairs, warnings) ← s.nodePairs c
  return ⟨s, outcome (pairs.map fun e => ⟨e.1, e.2, answer e.1 e.2⟩), warnings⟩

def createNodes (s : Session) : List Pattern → Except Error (Session × List Node)
  | [] => .ok (s, [])
  | p :: rest => do
      let node : Node := ⟨s.graph.nextId, p.attributes⟩
      let graph ← (s.graph.addNode p.attributes).mapError .halt
      let (final, nodes) ← ({ s with graph }.bind p.identifier (.node node)).createNodes rest
      return (final, node :: nodes)

/-- Connects hop after hop the nodes that the patterns at its ends select, and binds the edges. -/
def createEdges (s : Session) (c : Command) : List Pattern → Session × List Edge × List Warning
  | source :: relation :: target :: rest =>
      let left := s.matched c source
      let right := s.matched c target
      let pairs := left.ids.flatMap fun a => right.ids.map fun b => (a, b)
      let (graph, edges) := s.graph.connect relation.attributes pairs
      let linked := { s with graph }.bind relation.identifier (.edges edges)
      let (final, more, warnings) := linked.createEdges c (target :: rest)
      (final, edges ++ more, left.warnings ++ right.warnings ++ warnings)
  | _ => (s, [], [])

def everyOther {α : Type} : List α → List α
  | [] => []
  | [x] => [x]
  | x :: _ :: rest => x :: everyOther rest

def distinctNodes (s : Session) (ids : List NodeId) : List Node :=
  ids.eraseDups.filterMap s.graph.node?

def matchEdge (s : Session) (c : Command) (left relation right : Pattern) : Effect :=
  let (sources, sourceWarnings) := s.allowed c left
  let (targets, targetWarnings) := s.allowed c right
  let edges := (s.graph.edgesBetween (some left.attributes) (some right.attributes)
    (some relation.attributes)).filter fun e => sources.admits e.source && targets.admits e.target
  let bound := ((s.bind left.identifier (.nodes (s.distinctNodes (edges.map Edge.source)))).bind
    right.identifier (.nodes (s.distinctNodes (edges.map Edge.target)))).bind
    relation.identifier (.edges edges)
  ⟨bound, .edges edges, sourceWarnings ++ targetWarnings⟩

/-- Matches a chain and binds every pattern to the ends of the walks found. -/
def matchChain (s : Session) (c : Command) : Except Error Effect :=
  let nodes := everyOther c.patterns
  let edges := everyOther c.patterns.tail
  let narrowed := nodes.map (s.allowed c)
  let warnings := narrowed.flatMap Prod.snd
  match s.graph.matchChain (nodes.map Pattern.attributes) (edges.map Pattern.attributes)
      (narrowed.map Prod.fst) with
  | .error e => .error (.query (.misshapenChain e.nodes e.edges))
  | .ok none => .ok ⟨s, .noMatch, warnings⟩
  | .ok (some fragments) =>
      let bound := c.patterns.foldl (fun s p => s.bind p.identifier (.chain fragments)) s
      .ok ⟨bound, .chain fragments, warnings⟩

def runMatch (s : Session) (c : Command) : Except Error Effect :=
  match c.patterns with
  | [p] =>
      if p.role = .node then
        let found := s.matched c p
        .ok ⟨s.bind p.identifier (.nodes found.nodes), .nodes found.nodes, found.warnings⟩
      else
        let edges := s.graph.edgesWith p.attributes
        .ok ⟨s.bind p.identifier (.edges edges), .edges edges, []⟩
  | [left, relation, right] => .ok (s.matchEdge c left relation right)
  | _ => s.matchChain c

def flagOf (c : Command) : Except Error Bool :=
  match c.flag with
  | some flag => .ok flag
  | none => .error (.rule c.keyword .missingFlag)

def dispatch (s : Session) (c : Command) : Except Error Effect :=
  match c.keyword with
  | .create => do
      let (final, nodes) ← s.createNodes c.patterns
      return ⟨final, .created nodes, []⟩
  | .createEdge =>
      let (final, edges, warnings) := s.createEdges c c.patterns
      .ok ⟨final, .edgesCreated edges, warnings⟩
  | .matching => s.runMatch c
  | .modifyNode => do
      let add ← flagOf c
      let found := s.matched c (← patternAt c 0)
      let (graph, nodes) := s.graph.changeNodes add (← patternAt c 1).attributes found.ids
      return ⟨{ s with graph }, .modifiedNodes nodes, found.warnings⟩
  | .modifyEdge => do
      let add ← flagOf c
      let found := s.graph.edgesWith (← patternAt c 0).attributes
      let (graph, edges) :=
        s.graph.changeEdges add (← patternAt c 1).attributes (found.map Edge.endpoints)
      return ⟨{ s with graph }, .modifiedEdges edges, []⟩
  | .deleteNode => do
      let found := s.matched c (← patternAt c 0)
      let (final, removed) := s.removeNodes found.ids
      return ⟨final, .deleted removed, found.warnings⟩
  | .deleteEdge => do
      let found := s.graph.edgesWith (← patternAt c 0).attributes
      let (graph, edges) := s.graph.removeEdges (found.map Edge.endpoints)
      return ⟨{ s with graph }, .deleted ⟨[], edges⟩, []⟩
  | .hasPath => s.askPairs c s.graph.reachable .hasPath
  | .shortestPath => s.askPairs c s.graph.shortestPath .shortestPath
  | .hasEdge => s.askPairs c s.graph.hasEdge .hasEdge
  | .commonNeighbors => s.askPairs c s.graph.commonNeighbors .commonNeighbors
  | .neighbor => do
      let found := s.matched c (← patternAt c 0)
      return ⟨s, .neighbors (found.ids.map fun id => (id, s.graph.neighbors id)), found.warnings⟩
  | .returning =>
      let entries := c.patterns.map fun p => (p.identifier, s.binding? p.identifier)
      .ok ⟨s, .returned entries,
        (entries.filter (·.2.isNone)).map fun e => .unbound e.1⟩
  | .clear => .ok ⟨∅, .cleared, []⟩
  | .showing => .ok ⟨s, .shown s.graph.view, []⟩
  | .visualize => .ok ⟨s, .visualized s.graph.view, []⟩

/-- Carries out a command and reports on it. At a `halt` the program breaks off in the middle of the
command; the report then marks the place, and what the commands behind it do from the session before
is only a continuation of the model. -/
def runCommand (s : Session) (c : Command) : Session × Report :=
  match c.check with
  | .error fault => (s, { keyword := some c.keyword, result := .error (.rule c.keyword fault) })
  | .ok () =>
      match s.dispatch c with
      | .error e => (s, { keyword := some c.keyword, result := .error e })
      | .ok effect => (effect.session, ⟨some c.keyword, .ok effect.outcome, effect.warnings⟩)

def runCommands (s : Session) : List Command → Session × List Report
  | [] => (s, [])
  | c :: rest =>
      let (next, report) := s.runCommand c
      let (final, reports) := next.runCommands rest
      (final, report :: reports)

/-- Carries out statements in turn; a malformed one only adds its error to the reports. -/
def runStatements (s : Session) :
    List (Except ParseError (List Command)) → Session × List Report
  | [] => (s, [])
  | .error e :: rest =>
      let (final, reports) := s.runStatements rest
      (final, { keyword := none, result := .error (.parse e) } :: reports)
  | .ok commands :: rest =>
      let (next, first) := s.runCommands commands
      let (final, reports) := next.runStatements rest
      (final, first ++ reports)

def executeWords (s : Session) (ws : List String) : Session × List Report :=
  s.runStatements (Statement.parse ws)

def execute (s : Session) (text : String) : Session × List Report := s.executeWords (splitWords text)

end Session
end WordGraph
