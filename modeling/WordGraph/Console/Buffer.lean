import WordGraph.Query.Session

/-!
The statement buffer of the console: lines are gathered until one ends with a semicolon, and then
handed on as one text with spaces between the lines.
-/

namespace WordGraph

structure Buffer where
  pending : String := ""
  deriving DecidableEq, Inhabited

namespace Buffer

def isEmpty (b : Buffer) : Bool := b.pending.isEmpty

def endsStatement (line : String) : Bool := line.toList.getLast? = some ';'

/-- Adds a line. A blank one is skipped; one that ends a statement empties the buffer. -/
def push (b : Buffer) (line : String) : Buffer × Option String :=
  let line := Text.trim line
  if line.isEmpty then (b, none)
  else
    let text := if b.isEmpty then line else b.pending ++ " " ++ line
    if endsStatement line then ({}, some text) else (⟨text⟩, none)

end Buffer
end WordGraph
