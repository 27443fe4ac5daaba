import WordGraph.EdgeList.Record
import WordGraph.Graph.Basic

/-!
Import of edge lists. The first two fields of a record name the ends of an edge; a name that no node
carries yet makes a new node. A record that cannot be used is counted and changes nothing else.
-/

namespace WordGraph.EdgeList

def nameKey : String := "id"

structure Stats where
  nodes : Nat := 0
  edges : Nat := 0
  errors : Nat := 0
  deriving DecidableEq

structure Importer where
  graph : Graph
  /-- The node of each external name; of several nodes with one name, the last. -/
  known : OrderedMap String NodeId
  stats : Stats := {}

namespace Importer

def ofGraph (g : Graph) : Importer where
  graph := g
  known := .ofList (g.nodes.filterMap fun n => (n.attributes.get? nameKey).map fun name => (name, n.id))

/-- The node of a name. A name that no node carries makes a new one; this can break the whole import
off, which is no matter of the record at hand. -/
def nodeFor (i : Importer) (name : String) (attributes : Attributes) :
    Except Halt (Importer × NodeId) :=
  match i.known.find? name with
  | some id => .ok (i, id)
  | none => do
      let graph ← i.graph.addNode attributes
      return ({ graph
                known := i.known.insert name i.graph.nextId
                stats := { i.stats with nodes := i.stats.nodes + 1 } }, i.graph.nextId)

def reject (i : Importer) : Importer :=
  { i with stats := { i.stats with errors := i.stats.errors + 1 } }

def linkNodes (i : Importer) (source target : NodeId) : Importer :=
  match i.graph.addEdge source target ∅ with
  | .ok graph => { i with graph, stats := { i.stats with edges := i.stats.edges + 1 } }
  | .error _ => i.reject

/-- Puts an edge between two names that can be names of nodes. -/
def linkNames (i : Importer) (source target : String) (sourceAttributes targetAttributes : Attributes) :
    Except Halt Importer := do
  let (withSource, a) ← i.nodeFor source sourceAttributes
  let (withBoth, b) ← withSource.nodeFor target targetAttributes
  return withBoth.linkNodes a b

/-- Puts an edge between two names. Both are checked before either makes a node. -/
def addEdge (i : Importer) (source target : String) : Except Halt Importer :=
  match Attributes.ofList [(nameKey, source)], Attributes.ofList [(nameKey, target)] with
  | .ok sourceAttributes, .ok targetAttributes =>
      i.linkNames source target sourceAttributes targetAttributes
  | _, _ => .ok i.reject

def addRecord (i : Importer) : Record → Except Halt Importer
  | .fields (source :: target :: _) =>
      if source.isEmpty || target.isEmpty then .ok i.reject else i.addEdge source target
  | _ => .ok i.reject

def addRecords (i : Importer) (records : List Record) : Except Halt Importer :=
  records.foldlM addRecord i

end Importer

def importRecords (g : Graph) (records : List Record) : Except Halt (Graph × Stats) :=
  ((Importer.ofGraph g).addRecords records).map fun i => (i.graph, i.stats)

end WordGraph.EdgeList
