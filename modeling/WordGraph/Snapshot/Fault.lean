import WordGraph.Graph.Basic

/-!
What can be wrong with a snapshot: its header, its checksum, its block, the image in the block, or
the graph that the image describes.
-/

namespace WordGraph

inductive ImageFault where
  | incomplete
  | notText
  | badPair (fault : AttributeFault)
  | described (text : String)
  deriving DecidableEq

inductive SnapshotFault where
  | shortHeader
  | noSnapshot
  | version (version : Nat)
  | length (expected actual : Nat)
  | checksum (expected actual : UInt32)
  | block
  | image (fault : ImageFault)
  | graph (fault : GraphFault)
  | described (text : String)
  deriving DecidableEq

end WordGraph
