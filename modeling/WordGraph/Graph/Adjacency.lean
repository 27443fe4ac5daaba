import WordGraph.Graph.Entity

/-!
The neighbours of every node, kept in both directions and in the order in which the links were
made. Each direction has its own table, so a look-up never scans the edges.
-/

namespace WordGraph

structure Adjacency where
  outgoing : OrderedMap NodeId (List NodeId)
  incoming : OrderedMap NodeId (List NodeId)

namespace Adjacency

def empty : Adjacency := ⟨∅, ∅⟩

instance : EmptyCollection Adjacency := ⟨empty⟩
instance : Inhabited Adjacency := ⟨empty⟩

def successors (a : Adjacency) (id : NodeId) : List NodeId := (a.outgoing.find? id).getD []
def predecessors (a : Adjacency) (id : NodeId) : List NodeId := (a.incoming.find? id).getD []

def linked (a : Adjacency) (source target : NodeId) : Bool := target ∈ a.successors source

def outDegree (a : Adjacency) (id : NodeId) : Nat := (a.successors id).length
def inDegree (a : Adjacency) (id : NodeId) : Nat := (a.predecessors id).length

def addLast (xs : List NodeId) (x : NodeId) : List NodeId := if x ∈ xs then xs else xs ++ [x]

def remove (x : NodeId) (xs : List NodeId) : List NodeId := xs.filter (· ≠ x)

def link (a : Adjacency) (source target : NodeId) : Adjacency where
  outgoing := a.outgoing.insert source (addLast (a.successors source) target)
  incoming := a.incoming.insert target (addLast (a.predecessors target) source)

def unlink (a : Adjacency) (source target : NodeId) : Adjacency where
  outgoing := a.outgoing.modify source (remove target)
  incoming := a.incoming.modify target (remove source)

/-- The links of `id`: those that leave it, then those that only enter it. -/
def incident (a : Adjacency) (id : NodeId) : List Endpoints :=
  (a.successors id).map (id, ·) ++ ((a.predecessors id).filter (· ≠ id)).map (·, id)

/-- Takes `id` out of the rows of these nodes. -/
def forget (id : NodeId) (rows : OrderedMap NodeId (List NodeId)) (owners : List NodeId) :
    OrderedMap NodeId (List NodeId) :=
  owners.foldl (fun rows owner => rows.modify owner (remove id)) rows

/-- Removes the rows of `id`, and `id` from the rows of the nodes that those list. A loop goes with
the links that leave the node, before those that enter it are looked up. -/
def detach (a : Adjacency) (id : NodeId) : Adjacency :=
  let incoming := forget id a.incoming (a.successors id)
  { outgoing := forget id (a.outgoing.erase id) ((incoming.find? id).getD [])
    incoming := incoming.erase id }

end Adjacency
end WordGraph
