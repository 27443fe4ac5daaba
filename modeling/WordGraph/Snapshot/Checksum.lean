/-!
The CRC-32 checksum: division by a fixed polynomial, the bits of every byte taken from the lowest.
-/

namespace WordGraph.Checksum

/-- The bits of the polynomial, the highest power left out, in reversed order. -/
def polynomial : UInt32 := 0xEDB88320

def shift (c : UInt32) : UInt32 :=
  if c &&& 1 = 1 then (c >>> 1) ^^^ polynomial else c >>> 1

def feed (c : UInt32) (b : UInt8) : UInt32 := Nat.repeat shift 8 (c ^^^ b.toUInt32)

def ofBytes (bytes : List UInt8) : UInt32 := bytes.foldl feed 0xFFFFFFFF ^^^ 0xFFFFFFFF

/-- The usual check value, that of the nine digits from 1. -/
example : ofBytes [0x31, 0x32, 0x33, 0x34, 0x35, 0x36, 0x37, 0x38, 0x39] = 0xCBF43926 := by
  decide +kernel

end WordGraph.Checksum
