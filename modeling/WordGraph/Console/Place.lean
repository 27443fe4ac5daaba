/-!
Names of files. A name is a row of steps from the working folder, or from the root if it begins with
a slash; a step up is one of the steps and is not cancelled, since the folder before it has to be
there.
-/

namespace WordGraph

/-- What the name of a file says: where it begins, the steps from there, and whether it can only mean
a folder because a slash ends it. -/
structure Place where
  rooted : Bool := false
  steps : List String
  folder : Bool := false
  deriving DecidableEq

namespace Place

/-- The step to the folder around. -/
def up : String := ".."

/-- A step that leads nowhere. -/
def idle (step : String) : Bool := step = "" || step = "."

def pieces (name : String) : List String := (name.toList.splitOnP (· = '/')).map String.ofList

def ofName (name : String) : Place where
  rooted := name.toList.head? = some '/'
  steps := (pieces name).filter fun s => !idle s
  folder := (pieces name).getLast?.any idle

/-- The name of a place without what leads nowhere. -/
def name (p : Place) : String :=
  if p.steps.isEmpty then (if p.rooted then "/" else ".")
  else
    (if p.rooted then "/" else "") ++ "/".intercalate p.steps ++ (if p.folder then "/" else "")

def around (p : Place) : List Place :=
  (List.range (p.steps.length - 1)).map fun n => { p with steps := p.steps.take (n + 1), folder := false }

/-- The name of a file without its ending, which is what stands behind the last point. A point at the
start of the name does not begin an ending. -/
def stem (name : String) : String :=
  let upToPoint := (name.toList.reverse.dropWhile (· ≠ '.')).reverse
  if upToPoint.length ≤ 1 then name else String.ofList upToPoint.dropLast

/-- The name of the draft of a file. The ending gives way to another one; where two points are left of
the name before it, they are taken for a step up, which has no ending. -/
def draftStep (p : Place) (last : String) : String :=
  if stem last = "." && !p.folder then up else stem last ++ ".tmp"

/-- The place beside this one where a new version is prepared. A name that ends with a step up has
none, and stands for itself. -/
def draft (p : Place) : Place :=
  match p.steps.getLast? with
  | none => p
  | some last =>
      if last = up then p
      else { p with steps := p.steps.dropLast ++ [p.draftStep last], folder := false }

example : (ofName "a//./b.mdb").draft = ofName "a/b.tmp" ∧ (ofName ".a").draft = ofName ".a.tmp" ∧
    (ofName "a/..").draft = ofName "a/.." := by decide +kernel

/-- Without its ending, `..c` is the name of the folder around, unless a slash follows. -/
example : (ofName "x/..c").draft = ofName "x/.." ∧ (ofName "..c/").draft = ofName "..tmp" := by
  decide +kernel

end Place
end WordGraph
