/-!
Text as bytes. `decode?` refuses every byte list that is not well-formed UTF-8, and what `encode`
gives is read back.
-/

namespace WordGraph.Text.Utf8

def encode (s : String) : List UInt8 := s.toUTF8.data.toList

def decode? (bytes : List UInt8) : Option String := String.fromUTF8? ⟨bytes.toArray⟩

theorem decode?_encode (s : String) : decode? (encode s) = some s := by
  have : (⟨s.toUTF8.data.toList.toArray⟩ : ByteArray) = s.toUTF8 := rfl
  simp only [decode?, encode, this, String.fromUTF8?]
  split
  · simp [String.fromUTF8]
  · rename_i h
    exact absurd s.isValidUTF8 h

/-- The number of bytes of a text, which is the unit in which a cursor is placed. -/
def length : List Char → Nat
  | [] => 0
  | c :: cs => c.utf8Size + length cs

end WordGraph.Text.Utf8
