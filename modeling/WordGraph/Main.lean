import WordGraph.Console.Importer

/-!
The command line. The first argument `import` selects the import tool; anything else is for the
console. The files that the options name are read before the run and written behind it.
-/

namespace WordGraph.Main

partial def readInput (stream : IO.FS.Stream) (text : String) : IO String := do
  let line ← stream.getLine
  if line.isEmpty then return text else readInput stream (text ++ line)

def fetchPlace (disk : Disk) (p : Place) : IO Disk := do
  try
    let bytes ← IO.FS.readBinFile p.name
    return (disk.write p bytes.data.toList).toOption.getD disk
  catch _ =>
    try
      let _ ← IO.FS.realPath (p.name ++ "/.")
      return (disk.makeFolder p).toOption.getD disk
    catch _ => return disk

/-- Puts what a name is about on the disk: the folders on the way, the file and its draft. -/
def fetch (disk : Disk) (name : String) : IO Disk :=
  let place := Place.ofName name
  (place.around ++ [place, place.draft]).foldlM fetchPlace disk

def locationName : Location → String
  | [] => "."
  | first :: rest =>
      if [first] = Disk.root then first ++ "/".intercalate rest
      else "/".intercalate (first :: rest)

/-- Writes a file: beside its place first. -/
def storeFile (here : Location) (bytes : List UInt8) : IO Unit := do
  let name := locationName here
  let draft := (Place.ofName name).draft.name
  IO.FS.writeBinFile draft ⟨bytes.toArray⟩
  if draft ≠ name then IO.FS.rename draft name

def store (before after : Disk) : IO Unit := do
  for folder in after.folders do
    if !before.folders.contains folder then IO.FS.createDir (locationName folder)
  for (here, bytes) in after.files.entries do
    if before.files.find? here ≠ some bytes then storeFile here bytes

def runTool (names : List String) (tool : Disk → Console.Finished) : IO UInt32 := do
  let disk ← names.foldlM fetch ∅
  let finished := tool disk
  IO.print finished.stdout
  try
    store disk finished.disk
    return .ofNat finished.code
  catch e =>
    IO.eprintln (toString e)
    return 1

def namesIn (rules : List Console.OptionRule) (args : List String) (options : List String) :
    List String :=
  match Console.Options.read rules args with
  | .ok given => options.filterMap (Console.Options.value? given)
  | .error _ => []

def talks (args : List String) : Bool :=
  match Console.Options.read Console.Shell.rules args with
  | .ok given => !Console.Options.has given "execute" && !Console.Options.has given "file"
  | .error _ => false

def run : List String → IO UInt32
  | "import" :: args =>
      runTool (namesIn Console.Importer.rules args ["data", "input"] ++ ["./graph.mdb"])
        (Console.Importer.run args)
  | args => do
      let stdin ← if talks args then readInput (← IO.getStdin) "" else pure ""
      let terminal ← (← IO.getStdout).isTty
      runTool (namesIn Console.Shell.rules args ["data", "file"])
        (Console.Shell.run terminal args stdin)

end WordGraph.Main

def main (args : List String) : IO UInt32 := WordGraph.Main.run args
