import WordGraph.Text.Joining

/-!
The width of text on a terminal, in columns. Colour sequences are not shown: what is visible of them
by itself is taken off the columns of the text.
-/

namespace WordGraph.Text

def layOut (c : Char) (laid : Int × Behind) : Int × Behind :=
  let (columns, behind) := laid.2.before c
  (laid.1 + columns, behind)

/-- The columns of a row of characters if nothing in it is hidden. -/
def columns (cs : List Char) : Nat := (cs.foldr layOut (0, {})).1.toNat

/-- Where a character stands with regard to the colour sequences of a text. -/
inductive SequencePart where
  | outside
  | behindEscape
  | inside
  deriving DecidableEq

/-- A sequence runs from a bracket behind an escape to the next `m`. -/
def SequencePart.next : SequencePart → Char → SequencePart
  | outside, c => if c = '\x1b' then behindEscape else outside
  | behindEscape, c => if c = '[' then inside else outside
  | inside, c => if c = 'm' then outside else inside

/-- The number of characters in colour sequences that would be seen outside of them. -/
def hiddenFrom (part : SequencePart) : List Char → Nat
  | [] => 0
  | c :: rest =>
      let next := part.next c
      let hides := (part = .inside || next = .inside) && !isControl c && charColumns c ≠ 0
      (if hides then 1 else 0) + hiddenFrom next rest

def hidden (cs : List Char) : Nat := hiddenFrom .outside cs

def width (s : String) : Nat := columns s.toList - hidden s.toList

/-- Says that a text has a width. It has none if its colour sequences hide more than there is: the
characters of a ligature are hidden one by one. -/
def hasWidth (s : String) : Bool := hidden s.toList ≤ columns s.toList

example : width "ab" = 2 ∧ width "名" = 2 ∧ width "e\u0301" = 1 := by decide +kernel

/-- A face with a modifier, a joined family, a heart with the selector and a flag take two columns
each. -/
example : width "👍🏽" = 2 ∧ width "👨\u200d👩\u200d👧" = 2 ∧ width "\u2764\ufe0f" = 2 ∧
    width "🇨🇳" = 2 := by decide +kernel

/-- An escape counts like a letter; the rest of a sequence is hidden. -/
example : width "\x1b[31mab" = 3 ∧ width "\x1bab" = 3 := by decide +kernel

/-- A lam and an alef are two characters and one column, so hiding two such pairs is too much. -/
example : hasWidth "\x1b[31m" ∧ hasWidth "\x1b[لالا" = false := by decide +kernel

end WordGraph.Text
