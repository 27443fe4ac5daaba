import WordGraph.Text.Blank
import WordGraph.Text.Column
import WordGraph.Text.Unassigned

/-!
Text in quotes, as a message shows the name of a file: quotes, backslashes and the characters that
cannot be seen on their own are escaped.
-/

namespace WordGraph.Text

/-- Characters that steer how others are shown or joined. -/
def formatRanges : List (Nat × Nat) :=
  [(0xAD, 0xAD), (0x600, 0x605), (0x61C, 0x61C), (0x6DD, 0x6DD), (0x70F, 0x70F), (0x890, 0x891),
   (0x8E2, 0x8E2), (0x180E, 0x180E), (0x200B, 0x200F), (0x202A, 0x202E), (0x2060, 0x2064),
   (0x2066, 0x206F), (0xFEFF, 0xFEFF), (0xFFF9, 0xFFFB), (0x110BD, 0x110BD), (0x110CD, 0x110CD),
   (0x13430, 0x1343F), (0x1BCA0, 0x1BCA3), (0x1D173, 0x1D17A), (0xE0001, 0xE0001),
   (0xE0020, 0xE007F)]

/-- The halfwidth sound marks continue a letter and can be seen all the same. -/
def isHalfwidthMark (c : Char) : Bool := c = '\uff9e' || c = '\uff9f'

/-- Says that a character cannot be seen on its own: a control, a mark, a format character, a blank
other than the space, or none at all. -/
def unseen (c : Char) : Bool :=
  isControl c || (isBlank c && c ≠ ' ') || inRanges formatRanges c.toNat || isUnassigned c ||
    (extendsPrevious c && !isHalfwidthMark c)

def escapeQuoted (c : Char) : List Char :=
  match c with
  | '"' => ['\\', '"']
  | '\'' => ['\\', '\'']
  | '\\' => ['\\', '\\']
  | '\n' => ['\\', 'n']
  | '\r' => ['\\', 'r']
  | '\t' => ['\\', 't']
  | '\x00' => ['\\', '0']
  | c => if unseen c then ['\\', 'u', '\x7b'] ++ Nat.toDigits 16 c.toNat ++ ['\x7d'] else [c]

def quoted (s : String) : String := String.ofList ('"' :: s.toList.flatMap escapeQuoted ++ ['"'])

example : quoted "a'b" = "\"a\\'b\"" ∧ quoted "e\u0301" = "\"e\\u\x7b301\x7d\"" ∧
    quoted "名" = "\"名\"" := by decide +kernel

end WordGraph.Text
