import WordGraph.Snapshot.Block
import WordGraph.Snapshot.Fault
import WordGraph.Text.Utf8

/-!
The image of a graph as bytes: the counter, the nodes and the edges. Numbers are words of eight
bytes from the lowest; texts and lists stand behind their length. Reading puts the graph together
again and leaves alone what follows the image.
-/

namespace WordGraph

structure Image where
  counter : UInt64
  nodes : List Node
  edges : List Edge
  deriving DecidableEq

namespace Image

def ofGraph (g : Graph) (counter : UInt64) : Image := ⟨counter, g.nodes, g.edges⟩

def toGraph (i : Image) : Except GraphFault Graph := Graph.ofParts i.nodes i.edges i.counter

section Writing

def word (n : Nat) : List UInt8 := Block.littleEndian 8 n

def text (s : String) : List UInt8 := word (Text.Utf8.encode s).length ++ Text.Utf8.encode s

def list {α : Type} (item : α → List UInt8) (xs : List α) : List UInt8 :=
  word xs.length ++ xs.flatMap item

def attributes (a : Attributes) : List UInt8 := list (fun e => text e.1 ++ text e.2) a.toList

def node (n : Node) : List UInt8 := word n.id.toNat ++ attributes n.attributes

def edge (e : Edge) : List UInt8 :=
  word e.source.toNat ++ word e.target.toNat ++ attributes e.attributes

def write (i : Image) : List UInt8 := word i.counter.toNat ++ list node i.nodes ++ list edge i.edges

end Writing

section Reading

/-- Reads a value from the front of the bytes and gives back the rest. -/
abbrev Reader (α : Type) := List UInt8 → Except ImageFault (α × List UInt8)

def readBytes (n : Nat) : Reader (List UInt8) := fun bytes =>
  match Block.take? n bytes with
  | some r => .ok r
  | none => .error .incomplete

def readWord : Reader Nat := fun bytes => do
  let (field, rest) ← readBytes 8 bytes
  return (Block.ofLittleEndian field, rest)

def readText : Reader String := fun bytes => do
  let (length, rest) ← readWord bytes
  let (field, rest) ← readBytes length rest
  match Text.Utf8.decode? field with
  | some s => return (s, rest)
  | none => throw .notText

def readMany {α : Type} (item : Reader α) : Nat → Reader (List α)
  | 0, bytes => .ok ([], bytes)
  | n + 1, bytes => do
      let (x, rest) ← item bytes
      let (xs, rest) ← readMany item n rest
      return (x :: xs, rest)

def readList {α : Type} (item : Reader α) : Reader (List α) := fun bytes => do
  let (length, rest) ← readWord bytes
  readMany item length rest

def readPair : Reader (String × String) := fun bytes => do
  let (key, rest) ← readText bytes
  let (value, rest) ← readText rest
  return ((key, value), rest)

/-- Reads all pairs before it looks at any. A repeated key keeps its place and takes the last
value. -/
def readAttributes : Reader Attributes := fun bytes => do
  let (pairs, rest) ← readList readPair bytes
  match Attributes.ofList (OrderedMap.ofList pairs).entries with
  | .ok a => return (a, rest)
  | .error fault => throw (.badPair fault)

def readNode : Reader Node := fun bytes => do
  let (id, rest) ← readWord bytes
  let (a, rest) ← readAttributes rest
  return (⟨.ofNat id, a⟩, rest)

def readEdge : Reader Edge := fun bytes => do
  let (source, rest) ← readWord bytes
  let (target, rest) ← readWord rest
  let (a, rest) ← readAttributes rest
  return (⟨.ofNat source, .ofNat target, a⟩, rest)

def read : Reader Image := fun bytes => do
  let (counter, rest) ← readWord bytes
  let (nodes, rest) ← readList readNode rest
  let (edges, rest) ← readList readEdge rest
  return (⟨.ofNat counter, nodes, edges⟩, rest)

end Reading
end Image
end WordGraph
