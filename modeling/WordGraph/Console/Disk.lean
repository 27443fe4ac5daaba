import WordGraph.OrderedMap
import WordGraph.Console.Place
import WordGraph.Error
import WordGraph.Snapshot.File

/-!
Files in folders, as far as the tools use them: a file is read as a whole, and a snapshot replaces the
old one only when it is complete. A name is followed step by step, and every step but the last has to
lead to a folder that is there.
-/

namespace WordGraph

/-- Where something is: the folders around it and its own name. The way to a folder above the working
folder is a row of steps up, and the root is the single step `/`. -/
abbrev Location := List String

/-- Why nothing can be done at a place: nothing is there, or something else stands in the way. -/
inductive DiskFault where
  | missing
  | blocked
  deriving DecidableEq

def DiskFault.toError : DiskFault → Error
  | missing => .device "no such file"
  | blocked => .device "not possible here"

structure Disk where
  files : OrderedMap Location (List UInt8)
  folders : List Location

namespace Disk

def empty : Disk := ⟨∅, []⟩

instance : EmptyCollection Disk := ⟨empty⟩
instance : Inhabited Disk := ⟨empty⟩

/-- The most bytes that one step of a name may have. -/
def longestStep : Nat := 255

def longestName : Nat := 4095

section Locations

def root : Location := ["/"]

/-- The folder around a folder; the root is around itself. -/
def above (here : Location) : Location :=
  match here.getLast? with
  | none => [Place.up]
  | some last =>
      if here = root then root
      else if last = Place.up then here ++ [Place.up]
      else here.dropLast

/-- Says that a folder is at a location. The working folder and those around it always are. -/
def isFolder (d : Disk) (here : Location) : Bool :=
  here.getLast?.all (· = Place.up) || here = root || here ∈ d.folders

def isFile (d : Disk) (here : Location) : Bool := d.files.contains here

/-- Where one step leads from a folder. Nothing needs to be there. -/
def step (here : Location) (name : String) : Except DiskFault Location :=
  if name = Place.up then .ok (above here)
  else if longestStep < name.utf8ByteSize then .error .blocked
  else .ok (here ++ [name])

def enter (d : Disk) (here : Location) (name : String) : Except DiskFault Location := do
  let there ← step here name
  if d.isFolder there then return there
  else if d.isFile there then throw .blocked
  else throw .missing

def locate (d : Disk) (p : Place) : Except DiskFault Location :=
  let start := if p.rooted then root else []
  if longestName < p.name.utf8ByteSize then .error .blocked
  else match p.steps.getLast? with
    | none => .ok start
    | some last => do step (← p.steps.dropLast.foldlM d.enter start) last

end Locations

def holdsFolder (d : Disk) (p : Place) : Bool :=
  match d.locate p with
  | .ok there => d.isFolder there
  | .error _ => false

def file (d : Disk) (p : Place) : Except DiskFault (List UInt8) := do
  match d.files.find? (← d.locate p) with
  | some bytes => if p.folder then throw .blocked else return bytes
  | none => throw .missing

def exists? (d : Disk) (p : Place) : Bool := d.holdsFolder p || (d.file p).isOk

/-- Reads a file as a whole. A folder cannot be read. -/
def read (d : Disk) (p : Place) : Except Error (List UInt8) := (d.file p).mapError DiskFault.toError

def makeFolder (d : Disk) (p : Place) : Except DiskFault Disk := do
  let there ← d.locate p
  if d.isFolder there then return d
  else if d.isFile there then throw .blocked
  else return { d with folders := d.folders ++ [there] }

/-- Makes folders in turn. The disk that it gives is the one at the end, or at the first failure. -/
def makeFolders (d : Disk) : List Place → Disk × Except DiskFault Unit
  | [] => (d, .ok ())
  | p :: rest =>
      match d.makeFolder p with
      | .ok next => next.makeFolders rest
      | .error fault => (d, .error fault)

def makeWay (d : Disk) (p : Place) : Disk × Except DiskFault Unit :=
  match p.around.getLast? with
  | some last =>
      if longestName < last.name.utf8ByteSize then (d, .error .blocked) else d.makeFolders p.around
  | none => (d, .ok ())

/-- Says where a file can be put: where no folder is, and under no name that is for folders only. -/
def slot (d : Disk) (p : Place) : Except DiskFault Location := do
  let there ← d.locate p
  if p.folder || d.isFolder there then throw .blocked else return there

def write (d : Disk) (p : Place) (bytes : List UInt8) : Except DiskFault Disk := do
  return { d with files := d.files.insert (← d.slot p) bytes }

def move (d : Disk) (source target : Place) : Except DiskFault Disk := do
  let bytes ← d.file source
  let there ← d.slot target
  return { d with files := (d.files.erase (← d.locate source)).insert there bytes }

/-- Puts a complete file at a place: it is written beside it and then takes its name. The first part
is the disk as it is then, also when that failed. -/
def replace (d : Disk) (p : Place) (bytes : List UInt8) : Disk × Except DiskFault Unit :=
  match d.makeWay p with
  | (ready, .error fault) => (ready, .error fault)
  | (ready, .ok ()) =>
      match ready.write p.draft bytes with
      | .error fault => (ready, .error fault)
      | .ok drafted =>
          match drafted.move p.draft p with
          | .error fault => (drafted, .error fault)
          | .ok final => (final, .ok ())

def addFile (d : Disk) (p : Place) (bytes : List UInt8) : Disk :=
  let ready := (d.makeWay p).1
  (ready.write p bytes).toOption.getD ready

/-- The graph that is stored at a place; where there is nothing, an empty one. -/
def loadGraph (d : Disk) (p : Place) : Except Error Graph :=
  if d.exists? p then do
    let (graph, _) ← (Snapshot.decode (← d.read p)).mapError .snapshot
    return graph
  else .ok ∅

def saveGraph (d : Disk) (p : Place) (g : Graph) : Disk × Except DiskFault Unit :=
  d.replace p (Snapshot.encode g g.counter)

end Disk
end WordGraph
