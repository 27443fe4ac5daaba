import WordGraph.Console.Shell
import WordGraph.EdgeList.Import
import WordGraph.Text.Quoted

/-!
The import tool: it adds an edge list to the graph of a snapshot and tells what it did.
-/

namespace WordGraph.Console.Importer

def rules : List OptionRule :=
  [⟨"input", some 'i', .file⟩, ⟨"data", some 'd', .file⟩, ⟨"delimiter", none, .text⟩,
   ⟨"verbose", some 'v', .switch⟩]

def heading (input data : String) : String :=
  "microdb 数据导入工具\n====================\n输入文件: " ++ Text.quoted input ++ "\n快照文件: "
    ++ Text.quoted data ++ "\n"

def summary (stats : EdgeList.Stats) (g : Graph) : String :=
  "\n导入完成!\n  节点导入: " ++ toString stats.nodes ++ "\n  边导入: " ++ toString stats.edges
    ++ "\n  错误数: " ++ toString stats.errors ++ "\n  耗时: 0 ms\n\n当前图大小:\n  节点数: "
    ++ toString g.nodeCount ++ "\n  边数: " ++ toString g.edgeCount ++ "\n"

/-- The records of a file. A folder can be opened and not read, which counts as one record that is no
text. -/
def records (disk : Disk) (input : Place) (delimiter : UInt8) : Except Error (List Record) :=
  if disk.holdsFolder input then .ok [.unreadable]
  else (disk.read input).map (Record.readAll delimiter)

def transfer (input data : String) (delimiter : UInt8) (disk : Disk) : Finished :=
  let place := Place.ofName data
  match disk.loadGraph place with
  | .error _ => ⟨heading input data, 1, disk⟩
  | .ok graph =>
      let started := heading input data ++ "\n开始导入...\n"
      match records disk (.ofName input) delimiter with
      | .error _ => ⟨started, 1, disk⟩
      | .ok rs =>
          match EdgeList.importRecords graph rs with
          | .error _ => ⟨started, Shell.breakdownCode, disk⟩
          | .ok (final, stats) =>
              match disk.saveGraph place final with
              | (disk, .ok ()) => ⟨started ++ summary stats final, 0, disk⟩
              | (disk, .error _) => ⟨started, 1, disk⟩

def run (args : List String) (disk : Disk) : Finished :=
  match Options.read rules args with
  | .error .help => ⟨"", 0, disk⟩
  | .error .invalid => ⟨"", 2, disk⟩
  | .ok given =>
      match Options.value? given "input" with
      | none => ⟨"", 2, disk⟩
      | some input =>
          let data := (Options.value? given "data").getD "./graph.mdb"
          match Text.Utf8.encode ((Options.value? given "delimiter").getD "\t") with
          | [delimiter] => transfer input data delimiter disk
          | _ => ⟨"", 1, disk⟩

end WordGraph.Console.Importer
