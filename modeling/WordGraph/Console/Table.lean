import WordGraph.Text.Width

/-!
Results as columns and rows, drawn with lines around every cell or written one value to a line.
-/

namespace WordGraph

structure Table where
  columns : List String
  rows : List (List String)

namespace Table

/-- The lines of a cell. A line feed ends a line, with a carriage return before it if there is one. -/
def cellLines (s : String) : List String :=
  let pieces := s.toList.splitOnP (· = '\n')
  let ended := pieces.dropLast.map fun p => if p.getLast? = some '\r' then p.dropLast else p
  let last := (pieces.getLast?.toList).filter fun p => !p.isEmpty
  (ended ++ last).map String.ofList

def cellWidth (s : String) : Nat := ((cellLines s).map Text.width).foldl max 0

def columnWidths (rows : List (List String)) : List Nat :=
  rows.foldl (fun widths row => (widths.zip (row.map cellWidth)).map fun w => max w.1 w.2)
    ((rows.headD []).map fun _ => 0)

def spaces (n : Nat) : String := String.ofList (List.replicate n ' ')

def ruleLine (left middle right : String) (widths : List Nat) : String :=
  left ++ middle.intercalate (widths.map fun w => String.ofList (List.replicate (w + 2) '─')) ++ right
    ++ "\n"

/-- One line of a row; a cell that has no such line is blank there. -/
def rowLine (widths : List Nat) (cells : List (List String)) (index : Nat) : String :=
  let parts := (widths.zip cells).map fun c =>
    let line := (c.2[index]?).getD ""
    " " ++ line ++ spaces (c.1 - Text.width line) ++ " "
  "│" ++ "│".intercalate parts ++ "│\n"

def drawRow (widths : List Nat) (row : List String) : String :=
  let cells := row.map cellLines
  let height := (cells.map List.length).foldl max 1
  String.join ((List.range height).map (rowLine widths cells))

def lines (t : Table) : List (List String) := t.columns :: t.rows

def draw (t : Table) : String :=
  let widths := columnWidths t.lines
  let between := ruleLine "├" "┼" "┤" widths
  ruleLine "┌" "┬" "┐" widths ++ between.intercalate (t.lines.map (drawRow widths))
    ++ ruleLine "└" "┴" "┘" widths

/-- Says that every line of every cell has a width. -/
def measurable (t : Table) : Bool := t.lines.all (·.all fun cell => (cellLines cell).all Text.hasWidth)

def draw? (t : Table) : Option String := if t.measurable then some t.draw else none

def listRow (columns : List String) (number : Nat) (row : List String) : String :=
  let width := (columns.map String.length).foldl max 0
  let stars := "***************************"
  stars ++ " " ++ toString number ++ ". row " ++ stars ++ "\n" ++
    String.join ((columns.zip row).map fun c =>
      spaces (width - c.1.length) ++ c.1 ++ ": " ++ c.2 ++ "\n")

/-- Writes every value on a line of its own behind the name of its column. -/
def list (t : Table) : String :=
  String.join (t.rows.mapIdx fun i row => listRow t.columns (i + 1) row)

end Table
end WordGraph
