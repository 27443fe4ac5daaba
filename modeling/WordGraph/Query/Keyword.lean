import WordGraph.Text.Blank

/-!
The keywords of the query language. A word is a keyword in any mixture of upper and lower case.
-/

namespace WordGraph

inductive Keyword where
  | create
  | createEdge
  | matching
  | modifyNode
  | modifyEdge
  | deleteNode
  | deleteEdge
  | returning
  | hasPath
  | clear
  | shortestPath
  | neighbor
  | hasEdge
  | commonNeighbors
  | showing
  | visualize
  deriving DecidableEq, Inhabited

namespace Keyword

def all : List Keyword :=
  [create, createEdge, matching, modifyNode, modifyEdge, deleteNode, deleteEdge, returning, hasPath,
   clear, shortestPath, neighbor, hasEdge, commonNeighbors, showing, visualize]

def word : Keyword → String
  | create => "CREATE"
  | createEdge => "CREATEEDGE"
  | matching => "MATCH"
  | modifyNode => "MODIFYNODE"
  | modifyEdge => "MODIFYEDGE"
  | deleteNode => "DELETENODE"
  | deleteEdge => "DELETEEDGE"
  | returning => "RETURN"
  | hasPath => "HASPATH"
  | clear => "CLEAR"
  | shortestPath => "SHORTESTPATH"
  | neighbor => "NEIGHBOR"
  | hasEdge => "HASEDGE"
  | commonNeighbors => "COMMONNEIGHBORS"
  | showing => "SHOW"
  | visualize => "VISUALIZE"

def ofWord? (w : String) : Option Keyword :=
  all.find? fun k => Text.foldCase k.word = Text.foldCase w

theorem ofWord?_word (k : Keyword) : ofWord? k.word = some k := by
  cases k <;> decide +kernel

end Keyword
end WordGraph
