import WordGraph.Snapshot.Checksum
import WordGraph.Snapshot.Image

/-!
Snapshots: a header of 18 bytes and a payload. The header holds a mark, the version of the format, the
checksum of the payload and its length; the payload is the packed image of a graph. How images are
packed is not fixed by the format: everything is said for a packing and an unpacking, and at the end
stands the choice with which the program runs.
-/

namespace WordGraph.Snapshot

def mark : List UInt8 := [0x4D, 0x44, 0x42, 0x47]

def version : Nat := 1

def headerSize : Nat := 18

structure Header where
  version : Nat
  checksum : UInt32
  length : Nat
  deriving DecidableEq

def Header.write (h : Header) : List UInt8 :=
  mark ++ Block.littleEndian 2 h.version ++ Block.littleEndian 4 h.checksum.toNat ++
    Block.littleEndian 8 h.length

/-- Reads the header and gives the payload back. The mark is looked at before the version. -/
def Header.read (bytes : List UInt8) : Except SnapshotFault (Header × List UInt8) :=
  let field (start width : Nat) := Block.ofLittleEndian ((bytes.drop start).take width)
  if (bytes.take headerSize).length < headerSize then .error .shortHeader
  else if bytes.take 4 ≠ mark then .error .noSnapshot
  else if field 4 2 ≠ Snapshot.version then .error (.version (field 4 2))
  else .ok (⟨field 4 2, .ofNat (field 6 4), field 10 8⟩, bytes.drop headerSize)

/-- The snapshot of a graph whose image is packed by `pack`. -/
def encodeWith (pack : List UInt8 → List UInt8) (g : Graph) (counter : UInt64) : List UInt8 :=
  let body := pack (Image.ofGraph g counter).write
  Header.write ⟨version, Checksum.ofBytes body, body.length⟩ ++ body

/-- The payload of a snapshot whose header tells the truth about it. -/
def checkedPayload (bytes : List UInt8) : Except SnapshotFault (List UInt8) := do
  let (header, body) ← Header.read bytes
  if body.length ≠ header.length then throw (.length header.length body.length)
  else if Checksum.ofBytes body ≠ header.checksum then
    throw (.checksum header.checksum (Checksum.ofBytes body))
  else return body

/-- Reads the image in a payload. Bytes behind the image are left alone. -/
def readImage (unpack : List UInt8 → Option (List UInt8)) (body : List UInt8) :
    Except SnapshotFault Image :=
  match unpack body with
  | none => .error .block
  | some raw => ((Image.read raw).map Prod.fst).mapError .image

/-- The graph and the counter of a snapshot whose payload is unpacked by `unpack`. -/
def decodeWith (unpack : List UInt8 → Option (List UInt8)) (bytes : List UInt8) :
    Except SnapshotFault (Graph × UInt64) := do
  let image ← readImage unpack (← checkedPayload bytes)
  let graph ← image.toGraph.mapError .graph
  return (graph, image.counter)

def encode (g : Graph) (counter : UInt64) : List UInt8 := encodeWith Block.pack g counter

def decode (bytes : List UInt8) : Except SnapshotFault (Graph × UInt64) :=
  decodeWith Block.unpack? bytes

end WordGraph.Snapshot
