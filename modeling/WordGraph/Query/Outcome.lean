import WordGraph.Error
import WordGraph.Query.Binding
import WordGraph.Query.Filter

/-!
What a command answers, and the report that says it together with its warnings.
-/

namespace WordGraph

def Numeral.parse (text : String) : Except Error Binary64 :=
  match Numeral.number? text with
  | some x => .ok x
  | none => .error (.notNumeric text)

/-- An answer about an ordered pair of nodes. -/
structure PairAnswer (α : Type) where
  source : NodeId
  target : NodeId
  value : α

structure GraphView where
  nodes : List Node
  edges : List Edge
  deriving DecidableEq

inductive Outcome where
  | created (nodes : List Node)
  | edgesCreated (edges : List Edge)
  | nodes (nodes : List Node)
  | edges (edges : List Edge)
  | chain (fragments : List Fragment)
  | noMatch
  | modifiedNodes (nodes : List Node)
  | modifiedEdges (edges : List Edge)
  | deleted (view : GraphView)
  | hasPath (pairs : List (PairAnswer Bool))
  | shortestPath (pairs : List (PairAnswer (Option (List NodeId))))
  | hasEdge (pairs : List (PairAnswer Bool))
  | commonNeighbors (pairs : List (PairAnswer (List NodeId)))
  | neighbors (entries : List (NodeId × List NodeId))
  | returned (entries : List (String × Option Binding))
  | cleared
  | shown (view : GraphView)
  | visualized (view : GraphView)

/-- The answer to one command, or to a statement that was malformed and so has no keyword. -/
structure Report where
  keyword : Option Keyword
  result : Except Error Outcome
  warnings : List Warning := []

def Report.succeeded (r : Report) : Bool := r.result.isOk

/-- Says that a report stands for the end of the program, which writes none there. -/
def Report.halts (r : Report) : Bool :=
  match r.result with
  | .error (.halt _) => true
  | _ => false

end WordGraph
