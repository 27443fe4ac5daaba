import WordGraph.Console.Dot
import WordGraph.Console.Table
import WordGraph.Query.Session
import WordGraph.Text.Json

/-!
Reports as text: as tables, as lists of values or as JSON. A report can be printed unless it holds a
table that cannot be drawn.
-/

namespace WordGraph

inductive PrintMode where
  | table
  | vertical
  | json
  deriving DecidableEq

/-- How reports are printed, and whether terminal colours are used. -/
structure Printer where
  mode : PrintMode := .table
  colored : Bool := false

namespace Printer

structure Style where
  code : String

def Style.boldRed : Style := ⟨"1;31"⟩
def Style.red : Style := ⟨"31"⟩
def Style.green : Style := ⟨"32"⟩
def Style.boldYellow : Style := ⟨"1;33"⟩

def resetSequence : String := "\x1b[0m"

/-- Puts text in a style. Where the text itself ends all styles, the style is taken up again. -/
def paint (p : Printer) (style : Style) (s : String) : String :=
  if p.colored then
    let start := "\x1b[" ++ style.code ++ "m"
    start ++ (resetSequence ++ start).intercalate (s.splitOn resetSequence) ++ resetSequence
  else s

def joinIds (ids : List NodeId) : String := ", ".intercalate (ids.map NodeId.text)

def describe : Binding → String
  | .node n => "node " ++ n.id.text ++ " " ++ n.attributes.text
  | .nodes ns => toString ns.length ++ " node(s) [" ++ joinIds (ns.map Node.id) ++ "]"
  | .edges es =>
      toString es.length ++ " edge(s) ["
        ++ ", ".intercalate (es.map fun e => e.source.text ++ "->" ++ e.target.text) ++ "]"
  | .chain fs =>
      toString fs.length ++ " chain(s) ["
        ++ ", ".intercalate (fs.map fun f => f.1.text ++ ".." ++ f.2.text) ++ "]"

def nodeTable (nodes : List Node) : Table :=
  ⟨["id", "attributes"], nodes.map fun n => [n.id.text, n.attributes.text]⟩

def edgeTable (edges : List Edge) : Table :=
  ⟨["src", "dst", "attributes"],
    edges.map fun e => [e.source.text, e.target.text, e.attributes.text]⟩

def pairTable {α : Type} (columns : List String) (value : α → String) (pairs : List (PairAnswer α)) :
    Table :=
  ⟨columns, pairs.map fun e => [e.source.text, e.target.text, value e.value]⟩

def boolText (b : Bool) : String := if b then "true" else "false"

def pathText : Option (List NodeId) → String
  | some ids => " -> ".intercalate (ids.map NodeId.text)
  | none => "-"

def timed (elapsed : Nat) : String := " (" ++ toString elapsed ++ " ms)\n"

def printTable? (p : Printer) (elapsed : Nat) (t : Table) : Option String :=
  if t.rows.isEmpty then some ("Empty set" ++ timed elapsed)
  else do
    let body ← if p.mode = .vertical then some t.list else t.draw?
    return body ++ "\n" ++ toString t.rows.length ++ " row(s) in set" ++ timed elapsed

def printOutcome? (p : Printer) (elapsed : Nat) : Outcome → Option String
  | .created nodes =>
      some (p.paint .green (toString nodes.length) ++ " node(s) created" ++ timed elapsed)
  | .edgesCreated edges =>
      some (p.paint .green (toString edges.length) ++ " edge(s) created" ++ timed elapsed)
  | .noMatch => some "No match\n"
  | .cleared => some "Graph cleared\n"
  | .deleted view =>
      some (toString view.nodes.length ++ " node(s), " ++ toString view.edges.length
        ++ " edge(s) deleted" ++ timed elapsed)
  | .visualized view => some (Dot.draw view)
  | .shown view => do
      let nodes ← p.printTable? elapsed (nodeTable view.nodes)
      return nodes ++ (← p.printTable? elapsed (edgeTable view.edges))
  | .nodes nodes | .modifiedNodes nodes => p.printTable? elapsed (nodeTable nodes)
  | .edges edges | .modifiedEdges edges => p.printTable? elapsed (edgeTable edges)
  | .chain fragments =>
      p.printTable? elapsed ⟨["start", "end"], fragments.map fun f => [f.1.text, f.2.text]⟩
  | .hasPath pairs | .hasEdge pairs =>
      p.printTable? elapsed (pairTable ["from", "to", "result"] boolText pairs)
  | .shortestPath pairs => p.printTable? elapsed (pairTable ["from", "to", "path"] pathText pairs)
  | .commonNeighbors pairs => p.printTable? elapsed (pairTable ["a", "b", "common"] joinIds pairs)
  | .neighbors entries =>
      p.printTable? elapsed ⟨["node", "neighbors"], entries.map fun e => [e.1.text, joinIds e.2]⟩
  | .returned entries =>
      p.printTable? elapsed ⟨["identifier", "value"],
        entries.map fun e => [e.1, (e.2.map describe).getD "unbound"]⟩

def errorLabel (keyword : Option Keyword) (e : Error) : String :=
  match keyword with
  | some k => k.word
  | none => if e.isParse then "PARSE" else "ERROR"

def printText? (p : Printer) (elapsed : Nat) (r : Report) : Option String := do
  let body ← match r.result with
    | .ok outcome => p.printOutcome? elapsed outcome
    | .error e =>
        some (p.paint .boldRed ("[" ++ errorLabel r.keyword e ++ "]") ++ " "
          ++ p.paint .red e.message ++ "\n")
  return body ++ String.join (r.warnings.map fun w =>
    p.paint .boldYellow "warning:" ++ " " ++ w.message ++ "\n")

section AsJson

def keywordName : Keyword → String
  | .create => "Create"
  | .createEdge => "CreateEdge"
  | .matching => "Match"
  | .modifyNode => "ModifyNode"
  | .modifyEdge => "ModifyEdge"
  | .deleteNode => "DeleteNode"
  | .deleteEdge => "DeleteEdge"
  | .returning => "Return"
  | .hasPath => "HasPath"
  | .clear => "Clear"
  | .shortestPath => "ShortestPath"
  | .neighbor => "Neighbor"
  | .hasEdge => "HasEdge"
  | .commonNeighbors => "CommonNeighbors"
  | .showing => "Show"
  | .visualize => "Visualize"

def idJson (id : NodeId) : Json := .number id.toNat

def idsJson (ids : List NodeId) : Json := .array (ids.map idJson)

def attributesJson (a : Attributes) : Json := .sorted (a.toList.map fun e => (e.1, .text e.2))

def nodeJson (n : Node) : Json :=
  .sorted [("id", idJson n.id), ("attributes", attributesJson n.attributes)]

def edgeJson (e : Edge) : Json :=
  .sorted [("src", idJson e.source), ("dst", idJson e.target),
    ("attributes", attributesJson e.attributes)]

def nodesJson (ns : List Node) : Json := .array (ns.map nodeJson)
def edgesJson (es : List Edge) : Json := .array (es.map edgeJson)
def fragmentsJson (fs : List Fragment) : Json := .array (fs.map fun f => idsJson [f.1, f.2])

def viewJson (v : GraphView) : Json :=
  .sorted [("nodes", nodesJson v.nodes), ("edges", edgesJson v.edges)]

def tagged (name : String) (j : Json) : Json := .object [(name, j)]

def bindingJson : Binding → Json
  | .node n => tagged "Node" (nodeJson n)
  | .nodes ns => tagged "Nodes" (nodesJson ns)
  | .edges es => tagged "Edges" (edgesJson es)
  | .chain fs => tagged "Chain" (fragmentsJson fs)

def pairsJson {α : Type} (value : α → Json) (pairs : List (PairAnswer α)) : Json :=
  .array (pairs.map fun e =>
    .sorted [("from", idJson e.source), ("to", idJson e.target), ("value", value e.value)])

def outcomeJson : Outcome → Json
  | .created nodes => tagged "Created" (nodesJson nodes)
  | .edgesCreated edges => tagged "EdgesCreated" (edgesJson edges)
  | .nodes nodes => tagged "Nodes" (nodesJson nodes)
  | .edges edges => tagged "Edges" (edgesJson edges)
  | .chain fragments => tagged "Chain" (fragmentsJson fragments)
  | .noMatch => .text "NoMatch"
  | .modifiedNodes nodes => tagged "ModifiedNodes" (nodesJson nodes)
  | .modifiedEdges edges => tagged "ModifiedEdges" (edgesJson edges)
  | .deleted view => tagged "Deleted" (viewJson view)
  | .hasPath pairs => tagged "HasPath" (pairsJson .bool pairs)
  | .shortestPath pairs =>
      tagged "ShortestPath" (pairsJson (fun path => (path.map idsJson).getD .null) pairs)
  | .hasEdge pairs => tagged "HasEdge" (pairsJson .bool pairs)
  | .commonNeighbors pairs => tagged "CommonNeighbors" (pairsJson idsJson pairs)
  | .neighbors entries =>
      tagged "Neighbors" (.array (entries.map fun e =>
        .sorted [("node", idJson e.1), ("neighbors", idsJson e.2)]))
  | .returned entries =>
      tagged "Returned" (.array (entries.map fun e =>
        .sorted [("identifier", .text e.1), ("binding", (e.2.map bindingJson).getD .null)]))
  | .cleared => .text "Cleared"
  | .shown view => tagged "Show" (viewJson view)
  | .visualized view => tagged "Visualize" (viewJson view)

def reportJson (elapsed : Nat) (r : Report) : Json :=
  let common : List (String × Json) :=
    [("kind", (r.keyword.map fun k => .text (keywordName k)).getD .null),
     ("warnings", .array (r.warnings.map fun w => .text w.message))]
  match r.result with
  | .ok outcome =>
      .sorted (common ++ [("ok", .bool true), ("outcome", outcomeJson outcome),
        ("elapsed_ms", .number elapsed)])
  | .error e => .sorted (common ++ [("ok", .bool false), ("error", .text e.message)])

end AsJson

/-- Prints a report that took so many milliseconds. JSON is never coloured. -/
def print? (p : Printer) (elapsed : Nat) (r : Report) : Option String :=
  if p.mode = .json then some ((reportJson elapsed r).render ++ "\n") else p.printText? elapsed r

def stats (s : Session) : String :=
  Table.draw ⟨["Property", "Value"],
    [["Node Count", toString s.graph.nodeCount], ["Edge Count", toString s.graph.edgeCount],
     ["Bindings", toString s.bindings.size]]⟩

end Printer
end WordGraph
