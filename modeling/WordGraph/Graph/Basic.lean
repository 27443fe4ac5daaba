import WordGraph.Catalog
import WordGraph.Graph.Adjacency

/-!
The graph: a table of nodes, a table of edges with at most one edge between two nodes in one
direction, the adjacency of those edges and the counter from which node identities are drawn. Both
tables keep the order in which their entries came. A node carries its identity and an edge its ends,
so every operation has to put them under the keys that they name themselves.
-/

namespace WordGraph

structure Graph where
  nodeTable : Catalog Node.id
  edgeTable : Catalog Edge.endpoints
  adjacency : Adjacency
  counter : UInt64

/-- Why a graph refuses an edge or cannot be put together from its parts. -/
inductive GraphFault where
  | missingNode (id : NodeId)
  | idAboveCounter (id : NodeId) (counter : UInt64)
  deriving DecidableEq

/-- Why a program breaks off. This is no error that it reports: what comes behind is not run. -/
inductive Halt where
  | exhausted
  deriving DecidableEq

namespace Graph

def empty : Graph := ⟨∅, ∅, ∅, 0⟩

instance : EmptyCollection Graph := ⟨empty⟩
instance : Inhabited Graph := ⟨empty⟩

def nodes (g : Graph) : List Node := g.nodeTable.values
def edges (g : Graph) : List Edge := g.edgeTable.values

def nodeCount (g : Graph) : Nat := g.nodeTable.size
def edgeCount (g : Graph) : Nat := g.edgeTable.size

def hasNode (g : Graph) (id : NodeId) : Bool := g.nodeTable.contains id

def node? (g : Graph) (id : NodeId) : Option Node := g.nodeTable.find? id

def edge? (g : Graph) (source target : NodeId) : Option Edge :=
  g.edgeTable.find? (source, target)

def hasEdge (g : Graph) (source target : NodeId) : Bool := g.adjacency.linked source target

def neighbors (g : Graph) (id : NodeId) : List NodeId := g.adjacency.successors id
def predecessors (g : Graph) (id : NodeId) : List NodeId := g.adjacency.predecessors id

def nextId (g : Graph) : NodeId := ⟨g.counter + 1⟩

/-- The last value of the counter, behind which there is no other identity. -/
def lastCounter : UInt64 := 0xFFFFFFFFFFFFFFFF

/-- Puts a node behind the others, under the next identity. Behind the last counter there is none,
and the program breaks off. -/
def addNode (g : Graph) (attributes : Attributes) : Except Halt Graph :=
  if g.counter = lastCounter then .error .exhausted
  else .ok { g with
    nodeTable := g.nodeTable.insert g.nextId ⟨g.nextId, attributes⟩ (Node.id_mk ..)
    counter := g.counter + 1 }

def modifyNode (g : Graph) (id : NodeId) (f : Attributes → Attributes) : Graph :=
  { g with nodeTable := g.nodeTable.modify id (Node.edit f) (Node.id_edit f) }

def modifyEdge (g : Graph) (source target : NodeId) (f : Attributes → Attributes) : Graph :=
  { g with edgeTable := g.edgeTable.modify (source, target) (Edge.edit f) (Edge.endpoints_edit f) }

/-- Refuses an edge one of whose ends is not a node; the source is looked at first. -/
def checkEndpoints (g : Graph) (source target : NodeId) : Except GraphFault Unit :=
  if !g.hasNode source then .error (.missingNode source)
  else if !g.hasNode target then .error (.missingNode target)
  else .ok ()

/-- Puts an edge. One that is there already takes the new attributes and keeps its place. -/
def addEdge (g : Graph) (source target : NodeId) (attributes : Attributes) :
    Except GraphFault Graph := do
  g.checkEndpoints source target
  return { g with
    edgeTable :=
      g.edgeTable.insert (source, target) ⟨source, target, attributes⟩ (Edge.endpoints_mk ..)
    adjacency := g.adjacency.link source target }

def removeEdge (g : Graph) (source target : NodeId) : Option (Edge × Graph) :=
  (g.edge? source target).map fun e =>
    (e, { g with
      edgeTable := g.edgeTable.erase (source, target)
      adjacency := g.adjacency.unlink source target })

/-- Takes the edges between these ends out of a table, one after another. -/
def takeEdges (t : Catalog Edge.endpoints) : List Endpoints → List Edge × Catalog Edge.endpoints
  | [] => ([], t)
  | e :: rest =>
      let taken := takeEdges (t.erase e) rest
      ((t.find? e).toList ++ taken.1, taken.2)

/-- Removes a node with all its edges and gives them back; the edges that leave it come first. -/
def removeNode (g : Graph) (id : NodeId) : Option (Node × List Edge × Graph) :=
  (g.node? id).map fun n =>
    let taken := takeEdges g.edgeTable (g.adjacency.incident id)
    (n, taken.1,
      { g with
        nodeTable := g.nodeTable.erase id
        edgeTable := taken.2
        adjacency := g.adjacency.detach id })

def restoreNode (counter : UInt64) (g : Graph) (n : Node) : Except GraphFault Graph :=
  if counter < n.id.value then .error (.idAboveCounter n.id counter)
  else .ok { g with nodeTable := g.nodeTable.insert n.id n rfl }

/-- Builds the graph with these nodes, edges and counter. A repeated node or edge overwrites the
attributes of the earlier one. -/
def ofParts (nodes : List Node) (edges : List Edge) (counter : UInt64) :
    Except GraphFault Graph := do
  let withNodes ← nodes.foldlM (restoreNode counter) ∅
  let withEdges ← edges.foldlM (fun g e => g.addEdge e.source e.target e.attributes) withNodes
  return { withEdges with counter }

/-- Every end of an edge is a node, and the adjacency lists the edges in the order of their table. -/
structure Coherent (g : Graph) : Prop where
  source_mem : ∀ e ∈ g.edges, e.source ∈ g.nodeTable.keys
  target_mem : ∀ e ∈ g.edges, e.target ∈ g.nodeTable.keys
  neighbors_eq : ∀ id, g.neighbors id = (g.edges.filter (·.source = id)).map Edge.target
  predecessors_eq : ∀ id, g.predecessors id = (g.edges.filter (·.target = id)).map Edge.source

end Graph
end WordGraph
