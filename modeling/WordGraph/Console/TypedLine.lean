import WordGraph.Text.Cluster
import WordGraph.Text.Utf8

/-!
Lines as they are typed: a backspace takes back the cluster before it. The size of a cluster is kept
in one byte, so of a cluster of 256 bytes or more only the rest modulo 256 is taken back; a line is
lost if that would cut a character.
-/

namespace WordGraph

/-- What is left of a line so far, and the sizes of its clusters, both the last first. -/
structure TypedLine where
  text : List Char := []
  sizes : List UInt8 := []

namespace TypedLine

def backspace : List Char := ['\x08']

/-- Takes a number of bytes from the front; none is left if a character would be cut. -/
def dropBytes? (n : Nat) : List Char → Option (List Char)
  | [] => if n = 0 then some [] else none
  | c :: rest =>
      if n = 0 then some (c :: rest)
      else if c.utf8Size ≤ n then dropBytes? (n - c.utf8Size) rest
      else none

def erase? (t : TypedLine) : Option TypedLine :=
  match t.sizes with
  | [] => some t
  | size :: sizes => do return ⟨← dropBytes? size.toNat t.text, sizes⟩

def append (t : TypedLine) (cluster : List Char) : TypedLine where
  text := cluster.reverse ++ t.text
  sizes := .ofNat (Text.Utf8.length cluster) :: t.sizes

def type? (t : TypedLine) (cluster : List Char) : Option TypedLine :=
  if cluster = backspace then t.erase? else some (t.append cluster)

def read? (typed : String) : Option String := do
  let t ← (Text.clusters typed.toList).foldlM type? {}
  return String.ofList t.text.reverse

/-- A backspace takes a letter with its accent, and nothing at the start of the line. -/
example : read? "quix\x08t" = some "quit" ∧ read? "e\u0301\x08v" = some "v" ∧
    read? "\x08\x08a" = some "a" := by decide +kernel

end TypedLine
end WordGraph
