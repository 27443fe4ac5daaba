import WordGraph.Graph.Basic

/-!
Selection of nodes and edges by attributes. A filter is a set of attributes that the selected
entity has; the empty filter selects everything.
-/

namespace WordGraph.Graph

def nodesWith (g : Graph) (filter : Attributes) : List Node :=
  g.nodes.filter (·.attributes.includes filter)

def edgesWith (g : Graph) (filter : Attributes) : List Edge :=
  g.edges.filter (·.attributes.includes filter)

def nodeHas (g : Graph) (filter : Attributes) (id : NodeId) : Bool :=
  (g.node? id).any (·.attributes.includes filter)

/-- The edges whose ends and attributes pass the filters that are given. With a filter on the source
the search goes from node to node along the adjacency, without one through the table of edges. -/
def edgesBetween (g : Graph) (source target relation : Option Attributes) : List Edge :=
  let ends (id : NodeId) := target.all (g.nodeHas · id)
  let related (e : Edge) := relation.all e.attributes.includes
  match source with
  | some filter =>
      (g.nodesWith filter).flatMap fun n =>
        ((g.neighbors n.id).filter ends).filterMap fun id => (g.edge? n.id id).filter related
  | none => g.edges.filter fun e => ends e.target && related e

inductive Selection where
  | nodes (nodes : List Node)
  | edges (edges : List Edge)
  deriving DecidableEq

/-- Selects by a source filter, a target filter and an edge filter, any of which may be missing; a
lone node filter selects nodes. Without any filter there is no answer. -/
def select (g : Graph) : (source target relation : Option Attributes) → Option Selection
  | none, none, none => none
  | some n, none, none => some (.nodes (g.nodesWith n))
  | none, some n, none => some (.nodes (g.nodesWith n))
  | none, none, some r => some (.edges (g.edgesWith r))
  | source, target, relation => some (.edges (g.edgesBetween source target relation))

end WordGraph.Graph
