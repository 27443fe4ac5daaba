import WordGraph.Attributes

/-!
Nodes and edges: the identity of a node is a 64-bit word, an edge is named by its two ends.
-/

namespace WordGraph

structure NodeId where
  value : UInt64
  deriving DecidableEq, Inhabited

namespace NodeId

def toNat (id : NodeId) : Nat := id.value.toNat
def ofNat (n : Nat) : NodeId := ⟨.ofNat n⟩
def text (id : NodeId) : String := toString id.toNat

end NodeId

abbrev Endpoints := NodeId × NodeId

structure Node where
  id : NodeId
  attributes : Attributes
  deriving DecidableEq

theorem Node.id_mk (id : NodeId) (attributes : Attributes) : (Node.mk id attributes).id = id := rfl

/-- Gives a node other attributes; it stays the same node. -/
def Node.edit (f : Attributes → Attributes) (n : Node) : Node :=
  { n with attributes := f n.attributes }

@[simp] theorem Node.id_edit (f : Attributes → Attributes) (n : Node) : (n.edit f).id = n.id := rfl

structure Edge where
  source : NodeId
  target : NodeId
  attributes : Attributes
  deriving DecidableEq

def Edge.endpoints (e : Edge) : Endpoints := (e.source, e.target)

theorem Edge.endpoints_mk (source target : NodeId) (attributes : Attributes) :
    (Edge.mk source target attributes).endpoints = (source, target) := rfl

def Edge.edit (f : Attributes → Attributes) (e : Edge) : Edge :=
  { e with attributes := f e.attributes }

@[simp] theorem Edge.endpoints_edit (f : Attributes → Attributes) (e : Edge) :
    (e.edit f).endpoints = e.endpoints := rfl

def Edge.touches (e : Edge) (id : NodeId) : Bool := e.source = id || e.target = id

end WordGraph
