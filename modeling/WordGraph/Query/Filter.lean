import WordGraph.Number.Numeral
import WordGraph.Query.Group

/-!
Predicates over nodes. A predicate holds of a node if its threshold and the node's attribute are
both numbers and compare as it says. The predicates of a group are combined from the left.
-/

namespace WordGraph

/-- Something that did not stop a command and that its reader should know. -/
inductive Warning where
  | nonNumericValue (node : NodeId) (key value : String)
  | nonNumericThreshold (key threshold : String)
  | unbound (identifier : String)
  deriving DecidableEq

def Warning.message : Warning → String
  | nonNumericValue node key value =>
      "节点 " ++ node.text ++ " 的属性 " ++ key ++ "='" ++ value ++ "' 不是数值，已跳过"
  | nonNumericThreshold key threshold => "谓词 " ++ key ++ " 的阈值 '" ++ threshold ++ "' 不是数值"
  | unbound identifier => "标识符 " ++ identifier ++ " 未绑定"

def Comparison.holds : Comparison → Binary64 → Binary64 → Bool
  | less, value, threshold => value.less threshold
  | greater, value, threshold => threshold.less value
  | equal, value, threshold => value.equal threshold

structure Filtered where
  nodes : List Node := []
  warnings : List Warning := []
  deriving DecidableEq

namespace Filtered

def ids (f : Filtered) : List NodeId := f.nodes.map Node.id

end Filtered

/-- The nodes whose value at `key` compares as asked. A node without the key is passed over, one
whose value is no number is passed over with a warning; a threshold that is no number lets nothing
pass. -/
def filterNodes (nodes : List Node) (key : String) (comparison : Comparison) (threshold : String) :
    Filtered :=
  match Numeral.number? threshold with
  | none => { warnings := [.nonNumericThreshold key threshold] }
  | some limit =>
      { nodes := nodes.filter fun n =>
          ((n.attributes.get? key).bind Numeral.number?).any (comparison.holds · limit)
        warnings := nodes.filterMap fun n => (n.attributes.get? key).bind fun value =>
          if (Numeral.number? value).isNone then some (.nonNumericValue n.id key value) else none }

namespace Predicate

def filter (p : Predicate) (nodes : List Node) : Filtered :=
  filterNodes nodes p.key p.comparison p.threshold

/-- The meaning of a predicate, node by node. -/
def Holds (p : Predicate) (n : Node) : Prop :=
  ∃ limit value text, Numeral.number? p.threshold = some limit ∧ n.attributes.get? p.key = some text ∧
    Numeral.number? text = some value ∧ p.comparison.holds value limit = true

end Predicate

namespace PredicateGroup

/-- AND keeps the nodes that are also in `next`, OR adds those of `next` that are new. -/
def combine (running : List Node) : Combinator → List Node → List Node
  | .and, next => running.filter fun n => n.id ∈ next.map Node.id
  | .or, next =>
      next.foldl (fun kept n => if n.id ∈ kept.map Node.id then kept else kept ++ [n]) running

/-- Filters the nodes by every predicate of the group and combines the results from the left. -/
def filter (g : PredicateGroup) (nodes : List Node) : Filtered :=
  g.rest.foldl
    (fun running r =>
      let next := r.2.filter nodes
      ⟨combine running.nodes r.1 next.nodes, running.warnings ++ next.warnings⟩)
    (g.first.filter nodes)

end PredicateGroup
end WordGraph
