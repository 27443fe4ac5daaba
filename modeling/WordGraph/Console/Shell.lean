import WordGraph.Console.Batch
import WordGraph.Console.Disk
import WordGraph.Console.Help
import WordGraph.Console.Options
import WordGraph.Console.Printer
import WordGraph.Console.TypedLine

/-!
The console: it carries out one text, a batch file, or the lines of its input, on a graph that it
loads before and saves behind. A run maps the input and the disk to the output, an exit code and the
disk as it is then. It breaks down at a report that cannot be printed or a line that is lost, and then
saves nothing more.
-/

namespace WordGraph.Console

structure Finished where
  stdout : String
  code : Nat
  disk : Disk

namespace Shell

def rules : List OptionRule :=
  [⟨"data", some 'd', .file⟩, ⟨"file", some 'f', .file⟩, ⟨"execute", some 'e', .text⟩,
   ⟨"json", none, .switch⟩, ⟨"vertical", none, .switch⟩, ⟨"no-color", none, .switch⟩,
   ⟨"no-save", none, .switch⟩, ⟨"verbose", some 'v', .switch⟩]

def printerFor (terminal : Bool) (given : Options.Given) : Printer where
  mode :=
    if Options.has given "json" then .json
    else if Options.has given "vertical" then .vertical
    else .table
  colored := terminal && !Options.has given "no-color"

structure Output where
  text : String := ""
  broken : Bool := false

namespace Output

def say (o : Output) (text : String) : Output :=
  if o.broken then o else { o with text := o.text ++ text }

def breakDown (o : Output) : Output := { o with broken := true }

/-- Prints a text, or breaks down where there is none. -/
def print (o : Output) : Option String → Output
  | some text => o.say text
  | none => o.breakDown

/-- Prints what a text was answered with. The reports come when the whole text was executed, so there
are none if the program broke off in it. -/
def printAll (o : Output) (p : Printer) (reports : List Report) : Output :=
  if reports.any Report.halts then o.breakDown
  else reports.foldl (fun o r => o.print (p.print? 0 r)) o

end Output

def Style.dim : Printer.Style := ⟨"2"⟩
def Style.boldGreen : Printer.Style := ⟨"1;32"⟩

/-- The output of a batch; JSON output has the reports alone. If the program broke off, the lines
before that one were answered. -/
def printBatch (p : Printer) (run : Batch.Run) : Output :=
  let plain := p.mode ≠ .json
  let printLine (o : Output) (r : Nat × Report) : Output :=
    let headed := if plain then o.say (p.paint Style.dim ("-- line " ++ toString r.1) ++ "\n") else o
    headed.print (p.print? 0 r.2)
  match run.reports.find? (·.2.halts), run.result with
  | some (last, _), _ =>
      ((run.reports.filter fun r => r.1 < last).foldl printLine {}).breakDown
  | none, .ok stats =>
      let body := run.reports.foldl printLine {}
      if plain then
        body.say (toString stats.lines ++ " 条语句, " ++ toString stats.commands ++ " 条命令, "
          ++ toString stats.failed ++ " 条失败\n")
      else body
  | none, .error _ => run.reports.foldl printLine {}

def banner (p : Printer) (g : Graph) : String :=
  p.paint Style.boldGreen "microdb - 图数据库命令行" ++ "\n=========================\n  节点数: "
    ++ toString g.nodeCount ++ "\n  边数: " ++ toString g.edgeCount
    ++ "\n\n输入 'help' 查看命令列表，'quit' 退出\n\n"

/-- What a line means to the console, if no statement is pending. -/
inductive Request where
  | quit
  | help
  | stats
  | save
  | statement
  deriving DecidableEq

def Request.ofLine (line : String) : Request :=
  match line.toLower with
  | "quit" | "exit" | "q" => quit
  | "help" | "h" | "?" => help
  | "stats" => stats
  | ":save" => save
  | _ => statement

structure Dialogue where
  session : Session
  buffer : Buffer := {}
  disk : Disk
  output : Output := {}

namespace Dialogue

def say (d : Dialogue) (text : String) : Dialogue := { d with output := d.output.say text }

/-- Saves on request. A failure is told elsewhere than in the output. -/
def save (data : Option String) (d : Dialogue) : Dialogue :=
  match data with
  | none => d.say "未指定 --data，无法保存\n"
  | some name =>
      match d.disk.saveGraph (.ofName name) d.session.graph with
      | (disk, .ok ()) => { d with disk }.say ("已保存到 " ++ name ++ "\n")
      | (disk, .error _) => { d with disk }

def addLine (p : Printer) (d : Dialogue) (line : String) : Dialogue :=
  match d.buffer.push line with
  | (buffer, none) => { d with buffer }
  | (buffer, some text) =>
      let (session, reports) := d.session.execute text
      { d with session, buffer, output := d.output.printAll p reports }

/-- Answers a line that is not blank; the word that ends the dialogue has no answer. -/
def answer? (p : Printer) (data : Option String) (d : Dialogue) (line : String) : Option Dialogue :=
  if d.buffer.isEmpty then
    match Request.ofLine line with
    | .quit => none
    | .help => some (d.say (help ++ "\n"))
    | .stats => some (d.say (Printer.stats d.session ++ "\n"))
    | .save => some (d.save data)
    | .statement => some (d.addLine p line)
  else some (d.addLine p line)

def farewell (d : Dialogue) : Dialogue := d.say "再见！\n"

/-- Answers lines as they were typed, up to the end or to a breakdown. -/
def talk (p : Printer) (data : Option String) (d : Dialogue) : List String → Dialogue
  | [] => d.farewell
  | typed :: rest =>
      match (TypedLine.read? typed).map Text.trim with
      | none => { d with output := d.output.breakDown }
      | some line =>
          if line.isEmpty then talk p data d rest
          else match d.answer? p data line with
            | none => d.farewell
            | some next => if next.output.broken then next else talk p data next rest

end Dialogue

def breakdownCode : Nat := 101

/-- Saves at the end of a run, unless it broke down, there is nowhere to save or saving was
declined. -/
def finish (given : Options.Given) (s : Session) (disk : Disk) (out : Output) : Finished :=
  if out.broken then ⟨out.text, breakdownCode, disk⟩
  else match Options.value? given "data" with
  | none => ⟨out.text, 0, disk⟩
  | some name =>
      if Options.has given "no-save" then ⟨out.text, 0, disk⟩
      else match disk.saveGraph (.ofName name) s.graph with
        | (disk, .ok ()) => ⟨out.text, 0, disk⟩
        | (disk, .error _) => ⟨out.text, 1, disk⟩

def runBatch (p : Printer) (given : Options.Given) (s : Session) (disk : Disk) (name : String) :
    Finished :=
  match disk.read (.ofName name) with
  | .error _ => ⟨"", 1, disk⟩
  | .ok bytes =>
      let run := Batch.run s bytes
      let out := printBatch p run
      if run.result.isOk || out.broken then finish given run.session disk out
      else ⟨out.text, 1, disk⟩

/-- Runs with the options that were given. A text to execute comes before a batch file. -/
def runWith (terminal : Bool) (given : Options.Given) (stdin : String) (disk : Disk) : Finished :=
  let data := Options.value? given "data"
  let p := printerFor terminal given
  let loaded := match data with
    | some name => disk.loadGraph (.ofName name)
    | none => .ok ∅
  match loaded with
  | .error _ => ⟨"", 1, disk⟩
  | .ok graph =>
      let s := Session.ofGraph graph
      match Options.value? given "execute", Options.value? given "file" with
      | some text, _ =>
          let (final, reports) := s.execute text
          finish given final disk (({} : Output).printAll p reports)
      | none, some name => runBatch p given s disk name
      | none, none =>
          let start : Dialogue := { session := s, disk, output := { text := banner p graph } }
          let d := start.talk p data (stdin.splitOn "\n")
          finish given d.session d.disk d.output

def run (terminal : Bool) (args : List String) (stdin : String) (disk : Disk) : Finished :=
  match Options.read rules args with
  | .error .help => ⟨"", 0, disk⟩
  | .error .invalid => ⟨"", 2, disk⟩
  | .ok given => runWith terminal given stdin disk

end Shell
end WordGraph.Console
