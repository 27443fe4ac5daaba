import WordGraph.Graph.Chain

/-!
Names bound to results. A binding is the result as it was when it was bound; a later change of the
graph does not reach it.
-/

namespace WordGraph

inductive Binding where
  | node (n : Node)
  | nodes (ns : List Node)
  | edges (es : List Edge)
  | chain (fs : List Fragment)
  deriving DecidableEq

namespace Binding

def ids : Binding → List NodeId
  | node n => [n.id]
  | nodes ns => ns.map Node.id
  | edges es => es.flatMap fun e => [e.source, e.target]
  | chain fs => fs.flatMap fun f => [f.1, f.2]

def mentions (b : Binding) (gone : List NodeId) : Bool := b.ids.any (· ∈ gone)

def size : Binding → Nat
  | node _ => 1
  | nodes ns => ns.length
  | edges es => es.length
  | chain fs => fs.length

end Binding

abbrev Bindings := OrderedMap String Binding

def Bindings.forget (b : Bindings) (gone : List NodeId) : Bindings :=
  OrderedMap.filter (fun _ binding => !binding.mentions gone) b

end WordGraph
