import WordGraph.Console.Buffer
import WordGraph.Text.Utf8

/-!
Batches: a file of statements, whole statements on every line. Blank lines and those that begin with
a number sign are skipped; the run stops at a line that is not text or does not end its statement.
-/

namespace WordGraph.Batch

/-- The numbers of lines, of reports and of reports that tell of an error. -/
structure Stats where
  lines : Nat := 0
  commands : Nat := 0
  failed : Nat := 0
  deriving DecidableEq

/-- What a run leaves behind: every report with the number of its line, and how the run ended. -/
structure Run where
  session : Session
  reports : List (Nat × Report) := []
  result : Except Error Stats

def Stats.addLine (s : Stats) (reports : List Report) : Stats where
  lines := s.lines + 1
  commands := s.commands + reports.length
  failed := s.failed + (reports.filter fun r => !r.succeeded).length

def skipped (line : String) : Bool := line.isEmpty || line.toList.head? = some '#'

/-- Runs lines, the first of which has the given number. With a report that halts the program is at its
end, and with it the run. -/
def runLines (s : Session) (stats : Stats) (number : Nat) : List (List UInt8) → Run
  | [] => { session := s, result := .ok stats }
  | bytes :: rest =>
      match (Text.Utf8.decode? bytes).map Text.trim with
      | none => { session := s, result := .error (.device "stream did not contain valid UTF-8") }
      | some line =>
          if skipped line then runLines s stats (number + 1) rest
          else if !Buffer.endsStatement line then
            { session := s, result := .error (.query (.unterminatedLine number)) }
          else
            let (next, reports) := s.execute line
            let run := runLines next (stats.addLine reports) (number + 1) rest
            { run with reports := reports.map (fun r => (number, r)) ++ run.reports }

def run (s : Session) (bytes : List UInt8) : Run := runLines s {} 1 (bytes.splitOnP (· = 10))

end WordGraph.Batch
