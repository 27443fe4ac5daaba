import WordGraph.Text.Emoji
import WordGraph.Text.Mark

/-!
The division of text into clusters, which a reader takes for single characters: a letter with its
marks, a syllable of jamo or of joined consonants, a flag, a picture of several emoji. Nothing is lost
in it.
-/

namespace WordGraph.Text

/-- What a character can be to its neighbours in a cluster. -/
inductive ClusterClass where
  | other
  | carriageReturn
  | lineFeed
  | control
  | extend
  | joiner
  | spacingMark
  | prepended
  | leadingJamo
  | vowelJamo
  | trailingJamo
  | openSyllable
  | closedSyllable
  | flagLetter
  | picture
  | consonant
  deriving DecidableEq

section Classes

/-- Controls, separators of lines and format characters that stand on their own. -/
def controlRanges : List (Nat × Nat) :=
  [(0x0, 0x9), (0xB, 0xC), (0xE, 0x1F), (0x7F, 0x9F), (0xAD, 0xAD), (0x61C, 0x61C),
   (0x180E, 0x180E), (0x200B, 0x200B), (0x200E, 0x200F), (0x2028, 0x202E), (0x2060, 0x206F),
   (0xFEFF, 0xFEFF), (0xFFF0, 0xFFFB), (0x13430, 0x1343F), (0x1BCA0, 0x1BCA3), (0x1D173, 0x1D17A),
   (0xE0000, 0xE001F), (0xE0080, 0xE00FF), (0xE01F0, 0xE0FFF)]

/-- Marks with an advance that belong to the character before them. -/
def spacingMarkRanges : List (Nat × Nat) :=
  [(0x903, 0x903), (0x93B, 0x93B), (0x93E, 0x940), (0x949, 0x94C), (0x94E, 0x94F), (0x982, 0x983),
   (0x9BF, 0x9C0), (0x9C7, 0x9C8), (0x9CB, 0x9CC), (0xA03, 0xA03), (0xA3E, 0xA40), (0xA83, 0xA83),
   (0xABE, 0xAC0), (0xAC9, 0xAC9), (0xACB, 0xACC), (0xB02, 0xB03), (0xB40, 0xB40), (0xB47, 0xB48),
   (0xB4B, 0xB4C), (0xBBF, 0xBBF), (0xBC1, 0xBC2), (0xBC6, 0xBC8), (0xBCA, 0xBCC), (0xC01, 0xC03),
   (0xC41, 0xC44), (0xC82, 0xC83), (0xCBE, 0xCBE), (0xCC1, 0xCC1), (0xCC3, 0xCC4), (0xCF3, 0xCF3),
   (0xD02, 0xD03), (0xD3F, 0xD40), (0xD46, 0xD48), (0xD4A, 0xD4C), (0xD82, 0xD83), (0xDD0, 0xDD1),
   (0xDD8, 0xDDE), (0xDF2, 0xDF3), (0xE33, 0xE33), (0xEB3, 0xEB3), (0xF3E, 0xF3F), (0xF7F, 0xF7F),
   (0x1031, 0x1031), (0x103B, 0x103C), (0x1056, 0x1057), (0x1084, 0x1084), (0x17B6, 0x17B6),
   (0x17BE, 0x17C5), (0x17C7, 0x17C8), (0x1923, 0x1926), (0x1929, 0x192B), (0x1930, 0x1931),
   (0x1933, 0x1938), (0x1A19, 0x1A1A), (0x1A55, 0x1A55), (0x1A57, 0x1A57), (0x1A6D, 0x1A72),
   (0x1B04, 0x1B04), (0x1B3E, 0x1B41), (0x1B82, 0x1B82), (0x1BA1, 0x1BA1), (0x1BA6, 0x1BA7),
   (0x1BE7, 0x1BE7), (0x1BEA, 0x1BEC), (0x1BEE, 0x1BEE), (0x1C24, 0x1C2B), (0x1C34, 0x1C35),
   (0x1CE1, 0x1CE1), (0x1CF7, 0x1CF7), (0xA823, 0xA824), (0xA827, 0xA827), (0xA880, 0xA881),
   (0xA8B4, 0xA8C3), (0xA952, 0xA952), (0xA983, 0xA983), (0xA9B4, 0xA9B5), (0xA9BA, 0xA9BB),
   (0xA9BE, 0xA9BF), (0xAA2F, 0xAA30), (0xAA33, 0xAA34), (0xAA4D, 0xAA4D), (0xAAEB, 0xAAEB),
   (0xAAEE, 0xAAEF), (0xAAF5, 0xAAF5), (0xABE3, 0xABE4), (0xABE6, 0xABE7), (0xABE9, 0xABEA),
   (0xABEC, 0xABEC), (0x11000, 0x11000), (0x11002, 0x11002), (0x11082, 0x11082), (0x110B0, 0x110B2),
   (0x110B7, 0x110B8), (0x1112C, 0x1112C), (0x11145, 0x11146), (0x11182, 0x11182),
   (0x111B3, 0x111B5), (0x111BF, 0x111BF), (0x111CE, 0x111CE), (0x1122C, 0x1122E),
   (0x11232, 0x11233), (0x112E0, 0x112E2), (0x11302, 0x11303), (0x1133F, 0x1133F),
   (0x11341, 0x11344), (0x11347, 0x11348), (0x1134B, 0x1134C), (0x11362, 0x11363),
   (0x113B9, 0x113BA), (0x113CA, 0x113CA), (0x113CC, 0x113CD), (0x11435, 0x11437),
   (0x11440, 0x11441), (0x11445, 0x11445), (0x114B1, 0x114B2), (0x114B9, 0x114B9),
   (0x114BB, 0x114BC), (0x114BE, 0x114BE), (0x114C1, 0x114C1), (0x115B0, 0x115B1),
   (0x115B8, 0x115BB), (0x115BE, 0x115BE), (0x11630, 0x11632), (0x1163B, 0x1163C),
   (0x1163E, 0x1163E), (0x116AC, 0x116AC), (0x116AE, 0x116AF), (0x1171E, 0x1171E),
   (0x11726, 0x11726), (0x1182C, 0x1182E), (0x11838, 0x11838), (0x11931, 0x11935),
   (0x11937, 0x11938), (0x11940, 0x11940), (0x11942, 0x11942), (0x119D1, 0x119D3),
   (0x119DC, 0x119DF), (0x119E4, 0x119E4), (0x11A39, 0x11A39), (0x11A57, 0x11A58),
   (0x11A97, 0x11A97), (0x11C2F, 0x11C2F), (0x11C3E, 0x11C3E), (0x11CA9, 0x11CA9),
   (0x11CB1, 0x11CB1), (0x11CB4, 0x11CB4), (0x11D8A, 0x11D8E), (0x11D93, 0x11D94),
   (0x11D96, 0x11D96), (0x11EF5, 0x11EF6), (0x11F03, 0x11F03), (0x11F34, 0x11F35),
   (0x11F3E, 0x11F3F), (0x1612A, 0x1612C), (0x16F51, 0x16F87)]

/-- Signs that belong to the character behind them. -/
def prependedRanges : List (Nat × Nat) :=
  [(0x600, 0x605), (0x6DD, 0x6DD), (0x70F, 0x70F), (0x890, 0x891), (0x8E2, 0x8E2), (0xD4E, 0xD4E),
   (0x110BD, 0x110BD), (0x110CD, 0x110CD), (0x111C2, 0x111C3), (0x113D1, 0x113D1),
   (0x1193F, 0x1193F), (0x11941, 0x11941), (0x11A3A, 0x11A3A), (0x11A84, 0x11A89),
   (0x11D46, 0x11D46), (0x11F02, 0x11F02)]

def leadingJamoRanges : List (Nat × Nat) := [(0x1100, 0x115F), (0xA960, 0xA97C)]

def vowelJamoRanges : List (Nat × Nat) :=
  [(0x1160, 0x11A7), (0xD7B0, 0xD7C6), (0x16D63, 0x16D63), (0x16D67, 0x16D6A)]

def trailingJamoRanges : List (Nat × Nat) := [(0x11A8, 0x11FF), (0xD7CB, 0xD7FB)]

/-- Consonants of the scripts in which a sign without a sound ties two of them together. -/
def consonantRanges : List (Nat × Nat) :=
  [(0x915, 0x939), (0x958, 0x95F), (0x978, 0x97F), (0x995, 0x9A8), (0x9AA, 0x9B0), (0x9B2, 0x9B2),
   (0x9B6, 0x9B9), (0x9DC, 0x9DD), (0x9DF, 0x9DF), (0x9F0, 0x9F1), (0xA95, 0xAA8), (0xAAA, 0xAB0),
   (0xAB2, 0xAB3), (0xAB5, 0xAB9), (0xAF9, 0xAF9), (0xB15, 0xB28), (0xB2A, 0xB30), (0xB32, 0xB33),
   (0xB35, 0xB39), (0xB5C, 0xB5D), (0xB5F, 0xB5F), (0xB71, 0xB71), (0xC15, 0xC28), (0xC2A, 0xC39),
   (0xC58, 0xC5A), (0xD15, 0xD3A)]

def linkerRanges : List (Nat × Nat) :=
  [(0x94D, 0x94D), (0x9CD, 0x9CD), (0xACD, 0xACD), (0xB4D, 0xB4D), (0xC4D, 0xC4D), (0xD4D, 0xD4D)]

def isLinker (c : Char) : Bool := inRanges linkerRanges c.toNat

end Classes

namespace ClusterClass

/-- A syllable in one character ends in a vowel if it is the first of a row of 28. -/
def ofSyllable (n : Nat) : ClusterClass :=
  if (n - 0xAC00) % 28 = 0 then openSyllable else closedSyllable

def ofChar (c : Char) : ClusterClass :=
  let n := c.toNat
  if 0x20 ≤ n && n < 0x7F then other
  else if c = '\r' then carriageReturn
  else if c = '\n' then lineFeed
  else if c = Text.joiner then joiner
  else if inRanges controlRanges n then control
  else if extendsPrevious c || isModifier c then extend
  else if isFlagLetter c then flagLetter
  else if inRanges prependedRanges n then prepended
  else if inRanges spacingMarkRanges n then spacingMark
  else if 0xAC00 ≤ n && n ≤ 0xD7A3 then ofSyllable n
  else if inRanges leadingJamoRanges n then leadingJamo
  else if inRanges vowelJamoRanges n then vowelJamo
  else if inRanges trailingJamoRanges n then trailingJamo
  else if isPicture c then picture
  else if inRanges consonantRanges n then consonant
  else other

def isControl : ClusterClass → Bool
  | carriageReturn | lineFeed | control => true
  | _ => false

/-- Says that jamo or syllables go on as one syllable. -/
def continuesSyllable : ClusterClass → ClusterClass → Bool
  | leadingJamo, leadingJamo | leadingJamo, vowelJamo | leadingJamo, openSyllable
  | leadingJamo, closedSyllable | openSyllable, vowelJamo | openSyllable, trailingJamo
  | vowelJamo, vowelJamo | vowelJamo, trailingJamo | closedSyllable, trailingJamo
  | trailingJamo, trailingJamo => true
  | _, _ => false

end ClusterClass

/-- How far a chain of pieces has come that can go on to one cluster: not begun, begun with its first
piece, or with the tie behind it that asks for the next piece. -/
inductive Chain where
  | none
  | begun
  | tied
  deriving DecidableEq, Inhabited

/-- What the text before a place says on whether a cluster ends there: the class of its last
character, whether an odd number of flag letters ends it, and how far it is in a chain of pictures and
in one of consonants. -/
structure Preceding where
  last : ClusterClass
  oddFlagLetters : Bool := false
  pictures : Chain := .none
  consonants : Chain := .none
  deriving DecidableEq

namespace Preceding

/-- A picture, behind it what extends it, then a joiner. -/
def nextPictures (chain : Chain) : ClusterClass → Chain
  | .picture => .begun
  | .extend => if chain = .begun then .begun else .none
  | .joiner => if chain = .begun then .tied else .none
  | _ => .none

/-- A consonant, behind it what extends it, with a linker in it; a non-joiner parts the chain. -/
def nextConsonants (chain : Chain) (c : Char) : ClusterClass → Chain
  | .consonant => .begun
  | .extend | .joiner =>
      if c = '\u200c' then .none
      else if isLinker c && chain ≠ .none then .tied
      else chain
  | _ => .none

/-- What stands before the next place when `c` has been read. -/
def push (p : Preceding) (c : Char) : Preceding :=
  let k := ClusterClass.ofChar c
  { last := k
    oddFlagLetters := k = .flagLetter && !p.oddFlagLetters
    pictures := nextPictures p.pictures k
    consonants := nextConsonants p.consonants c k }

def first (c : Char) : Preceding := ({ last := .control } : Preceding).push c

def continues (p : Preceding) (c : Char) : Bool :=
  let k := ClusterClass.ofChar c
  if p.last = .carriageReturn && k = .lineFeed then true
  else if p.last.isControl || k.isControl then false
  else
    p.last.continuesSyllable k || k = .extend || k = .joiner || k = .spacingMark ||
      p.last = .prepended || (k = .consonant && p.consonants = .tied) ||
      (k = .picture && p.pictures = .tied) || (k = .flagLetter && p.oddFlagLetters)

end Preceding

/-- The clusters of a text of which the first one has begun; its characters come last first. -/
def clustersFrom (p : Preceding) (begun : List Char) : List Char → List (List Char)
  | [] => [begun.reverse]
  | c :: rest =>
      if p.continues c then clustersFrom (p.push c) (c :: begun) rest
      else begun.reverse :: clustersFrom (p.push c) [c] rest

def clusters : List Char → List (List Char)
  | [] => []
  | c :: rest => clustersFrom (.first c) [c] rest

theorem flatten_clustersFrom (p : Preceding) (begun cs : List Char) :
    (clustersFrom p begun cs).flatten = begun.reverse ++ cs := by
  induction cs generalizing p begun with
  | nil => simp [clustersFrom]
  | cons c rest ih =>
    simp only [clustersFrom]
    split <;> simp [ih]

theorem flatten_clusters (cs : List Char) : (clusters cs).flatten = cs := by
  cases cs with
  | nil => rfl
  | cons c rest => simp [clusters, flatten_clustersFrom]

/-- A letter and its accent, a syllable of jamo, a conjunct and a family are one cluster each. -/
example : clusters "xe\u0301y".toList = [['x'], ['e', '\u0301'], ['y']] ∧
    (clusters "\u1100\u1161\u11a8".toList).length = 1 ∧
    (clusters "\u0915\u094d\u0937".toList).length = 1 ∧
    (clusters "👨\u200d👩\u200d👧".toList).length = 1 := by decide +kernel

/-- Of three flag letters the first two are one flag; a control stands alone. -/
example : (clusters "🇨🇳🇨".toList).length = 2 ∧
    clusters "a\x08\u0301".toList = [['a'], ['\x08'], ['\u0301']] := by decide +kernel

end WordGraph.Text
