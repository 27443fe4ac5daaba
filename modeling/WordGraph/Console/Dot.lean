import WordGraph.Query.Outcome

/-!
Graphs in the DOT language. A label is a quoted string in which a quote and a backslash stand behind
a backslash and lines are parted by a backslash and an `n`.
-/

namespace WordGraph.Dot

def escapeChar (c : Char) : List Char :=
  if c = '\\' || c = '"' then ['\\', c] else [c]

def escape (s : String) : String := String.ofList (s.toList.flatMap escapeChar)

def attributeLine (e : String × String) : String := escape e.1 ++ ": " ++ escape e.2

def label (lines : List String) : String := "[label=\"" ++ "\\n".intercalate lines ++ "\"]"

def nodeLine (n : Node) : String :=
  "  " ++ n.id.text ++ " " ++ label (n.id.text :: n.attributes.toList.map attributeLine) ++ ";\n"

def edgeLine (e : Edge) : String :=
  "  " ++ e.source.text ++ " -> " ++ e.target.text ++
    (if e.attributes.isEmpty then "" else " " ++ label (e.attributes.toList.map attributeLine)) ++ ";\n"

def draw (v : GraphView) : String :=
  "digraph microdb \x7b\n" ++ String.join (v.nodes.map nodeLine) ++ String.join (v.edges.map edgeLine)
    ++ "\x7d\n"

end WordGraph.Dot
