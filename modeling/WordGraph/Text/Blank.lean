import WordGraph.Text.Ranges

/-!
White space, trimming and the division of text into words. The class is Unicode's White_Space
property, so the zero-width space and the information separators belong to words.
-/

namespace WordGraph.Text

/-- The code points of Unicode's White_Space property, as closed ranges. -/
def blankRanges : List (Nat × Nat) :=
  [(0x09, 0x0D), (0x20, 0x20), (0x85, 0x85), (0xA0, 0xA0), (0x1680, 0x1680), (0x2000, 0x200A),
   (0x2028, 0x2029), (0x202F, 0x202F), (0x205F, 0x205F), (0x3000, 0x3000)]

def isBlank (c : Char) : Bool := inRanges blankRanges c.toNat

def words (cs : List Char) : List (List Char) :=
  (cs.splitOnP isBlank).filter fun w => !w.isEmpty

def trimStart (cs : List Char) : List Char := cs.dropWhile isBlank

def trimEnd (cs : List Char) : List Char := (cs.reverse.dropWhile isBlank).reverse

def trim (s : String) : String := String.ofList (trimEnd (trimStart s.toList))

/-- The form in which words are compared when the case of the letters A to Z does not count. -/
def foldCase (s : String) : List Char := s.toList.map Char.toLower

theorem words_append_blank (xs ys : List Char) {c : Char} (h : isBlank c = true) :
    words (xs ++ c :: ys) = words xs ++ words ys := by
  simp [words, List.splitOnP_append_cons xs ys h]

/-- The blanks between lines, the space and the ideographic space are blank; a word joiner is not. -/
example : isBlank ' ' ∧ isBlank '\u3000' ∧ isBlank '\n' ∧ isBlank '\u200b' = false := by decide

example : words " a\tbc ".toList = [['a'], ['b', 'c']] := by decide

end WordGraph.Text
