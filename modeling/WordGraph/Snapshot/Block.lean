/-!
Compressed blocks in the LZ4 block format. A block is a row of sequences: a token, literal bytes, and
a match that repeats bytes already written; the last sequence ends behind its literals. In front of
the block stands the room it needs, as four bytes from the lowest.
-/

namespace WordGraph.Block

def ofLittleEndian (bytes : List UInt8) : Nat := bytes.foldr (fun b n => b.toNat + 256 * n) 0

def littleEndian : Nat → Nat → List UInt8
  | 0, _ => []
  | width + 1, n => .ofNat (n % 256) :: littleEndian width (n / 256)

def take? (n : Nat) (bytes : List UInt8) : Option (List UInt8 × List UInt8) :=
  let taken := bytes.take n
  if taken.length = n then some (taken, bytes.drop n) else none

/-- Reads the continuation of a length: bytes are added up until one is below 255. -/
def extension? : List UInt8 → Option (Nat × List UInt8)
  | [] => none
  | b :: rest =>
      if b = 255 then (extension? rest).map fun e => (255 + e.1, e.2) else some (b.toNat, rest)

/-- A length is four bits of the token, continued if they are all set. -/
def length? (nibble : Nat) (bytes : List UInt8) : Option (Nat × List UInt8) :=
  if nibble = 15 then (extension? bytes).map fun e => (15 + e.1, e.2) else some (nibble, bytes)

/-- Repeats `n` bytes from `distance` back. The copy may run into the bytes that it writes. -/
def repeatFrom (distance : Nat) : Nat → Array UInt8 → Array UInt8
  | 0, out => out
  | n + 1, out => repeatFrom distance n (out.push (out.getD (out.size - distance) 0))

/-- Reads a match: its distance, which stays within what was written, and its length. -/
def match? (room nibble : Nat) (bytes : List UInt8) (out : Array UInt8) :
    Option (List UInt8 × Array UInt8) := do
  let (field, rest) ← take? 2 bytes
  let (extra, rest) ← length? nibble rest
  let distance := ofLittleEndian field
  if distance = 0 || out.size < distance || room < out.size + extra + 4 then none
  else some (rest, repeatFrom distance (extra + 4) out)

/-- Reads sequences until the literals of one end the block. Each takes at least a byte, so as many
rounds as there are bytes suffice. -/
def sequences? (room : Nat) : Nat → List UInt8 → Array UInt8 → Option (Array UInt8)
  | 0, _, _ => none
  | _, [], _ => none
  | rounds + 1, token :: bytes, out => do
      let (count, rest) ← length? (token.toNat / 16) bytes
      let (literals, rest) ← take? count rest
      if room < out.size + literals.length then none
      else
        let out := out ++ literals
        if rest.isEmpty then some out
        else
          let (rest, out) ← match? room (token.toNat % 16) rest out
          sequences? room rounds rest out

/-- Unpacks a block behind the room it needs. It may fill less than that room, and never more. -/
def unpack? (bytes : List UInt8) : Option (List UInt8) := do
  let (room, block) ← take? 4 bytes
  let out ← sequences? (ofLittleEndian room) block.length block #[]
  return out.toList

/-- The continuation of a length whose first fifteen are in the token. -/
def extension (n : Nat) : List UInt8 := List.replicate (n / 255) 255 ++ [.ofNat (n % 255)]

def pack (bytes : List UInt8) : List UInt8 :=
  littleEndian 4 bytes.length ++
    (if bytes.length < 15 then [.ofNat (16 * bytes.length)]
      else 0xF0 :: extension (bytes.length - 15)) ++ bytes

end WordGraph.Block
