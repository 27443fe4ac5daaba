import WordGraph.Query.Command
import WordGraph.Text.Utf8

/-!
Completion of the word before the cursor. Positions count the bytes of the line in UTF-8.
-/

namespace WordGraph.Complete

def consoleWords : List String := ["help", "quit", "exit", "stats", ":save"]

def keywords : List String := Keyword.all.map Keyword.word ++ [Combinator.and, .or].map Combinator.word

def markers : List String := [Role.node, .edge, .bool].map Role.marker

/-- The characters before and behind a byte position; none if it lies beyond the end or inside a
character. -/
def splitAtByte? : Nat → List Char → Option (List Char × List Char)
  | 0, cs => some ([], cs)
  | _ + 1, [] => none
  | n + 1, c :: cs =>
      if n + 1 < c.utf8Size then none
      else (splitAtByte? (n + 1 - c.utf8Size) cs).map fun r => (c :: r.1, r.2)

/-- The byte behind the first byte of the last blank, or 0 if there is no blank. -/
def wordStart (cs : List Char) : Nat :=
  let upToBlank := (cs.reverse.dropWhile fun c => !Text.isBlank c).reverse
  match upToBlank.getLast? with
  | some blank => Text.Utf8.length upToBlank - blank.utf8Size + 1
  | none => 0

/-- The upper case of the characters whose upper case is made of the letters A to Z. No other
character can be a part of a keyword. -/
def upper (c : Char) : List Char :=
  match c with
  | 'ß' => ['S', 'S']
  | 'ı' => ['I']
  | 'ſ' => ['S']
  | 'ﬀ' => ['F', 'F']
  | 'ﬁ' => ['F', 'I']
  | 'ﬂ' => ['F', 'L']
  | 'ﬃ' => ['F', 'F', 'I']
  | 'ﬄ' => ['F', 'F', 'L']
  | 'ﬅ' => ['S', 'T']
  | 'ﬆ' => ['S', 'T']
  | c => [c.toUpper]

def startsWith (word start : List Char) : Bool := start.isPrefixOf word

/-- What may stand for a word: console words if it opens the line and begins one, else keywords in
any case and longer markers. -/
def candidates (atStart : Bool) (word : List Char) : List String :=
  let console := consoleWords.filter fun w => startsWith w.toList word
  if atStart && !console.isEmpty then console
  else
    keywords.filter (fun w => startsWith w.toList (word.flatMap upper)) ++
      markers.filter fun m => startsWith m.toList word && m.toList ≠ word

/-- The start of the word before the cursor and what it may become. There is no answer if the cursor
or the start is not between two characters of the line. -/
def complete? (line : String) (cursor : Nat) : Option (Nat × List String) := do
  let (before, _) ← splitAtByte? cursor line.toList
  let start := wordStart before
  let (_, word) ← splitAtByte? start before
  if word.isEmpty then return (cursor, [])
  else return (start, candidates (start = 0) word)

end WordGraph.Complete
