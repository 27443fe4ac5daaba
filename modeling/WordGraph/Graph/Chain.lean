import WordGraph.Graph.Select

/-!
Matching of chains: walks whose nodes and edges pass a sequence of filters. The answer lists the
first and last nodes of such walks, each pair once; it is built by joining the edges of one hop
after another.
-/

namespace WordGraph

/-- The first and the last node of a stretch of a chain. -/
abbrev Fragment := NodeId × NodeId

namespace Fragment

/-- Joins stretches that meet; a pair that arises twice stands where it arose first. -/
def join (left right : List Fragment) : List Fragment :=
  (left.flatMap fun l => (right.filter (·.1 = l.2)).map fun r => (l.1, r.2)).eraseDups

def joinAll : List (List Fragment) → List Fragment
  | [] => []
  | hop :: hops => hops.foldl join hop.eraseDups

end Fragment

/-- The nodes that a position of a chain may take; none means any. -/
abbrev Allowed := Option (List NodeId)

def Allowed.admits (allowed : Allowed) (id : NodeId) : Bool := allowed.all (id ∈ ·)

namespace Graph

/-- The edges of each hop as stretches. The positions beyond the end of `allowed` are free. -/
def hops (g : Graph) : List Attributes → List Attributes → List Allowed → List (List Fragment)
  | n :: m :: nodes, e :: edges, allowed =>
      let here : Allowed := allowed.head?.join
      let there : Allowed := allowed.tail.head?.join
      let hop := ((g.edgesBetween (some n) (some m) (some e)).map Edge.endpoints).filter fun f =>
        here.admits f.1 && there.admits f.2
      hop :: g.hops (m :: nodes) edges allowed.tail
  | _, _, _ => []

/-- The first and last nodes of the walks that pass the filters, or nothing if there is no walk. -/
def chain (g : Graph) (nodes edges : List Attributes) (allowed : List Allowed) :
    Option (List Fragment) :=
  let fragments := Fragment.joinAll (g.hops nodes edges allowed)
  if fragments.isEmpty then none else some fragments

structure Misshapen where
  nodes : Nat
  edges : Nat
  deriving DecidableEq

/-- Matches a chain; its filters have to alternate, with a node at both ends and at least one edge. -/
def matchChain (g : Graph) (nodes edges : List Attributes) (allowed : List Allowed) :
    Except Misshapen (Option (List Fragment)) :=
  if nodes.length = edges.length + 1 && !edges.isEmpty then .ok (g.chain nodes edges allowed)
  else .error ⟨nodes.length, edges.length⟩

end Graph
end WordGraph
