import WordGraph.Number.Binary64
import WordGraph.Text.Blank

/-!
The written form of numbers: an optional sign, then digits with an optional point and an optional
exponent, or one of the words for infinity and for a NaN. At least one digit stands before the
exponent; blanks around the whole are skipped.
-/

namespace WordGraph

/-- What a numeral says, before it is rounded. -/
inductive Numeral where
  | decimal (negative : Bool) (digits : Nat) (exponent : Int)
  | infinite (negative : Bool)
  | nan
  deriving DecidableEq

namespace Numeral

def isDigit (c : Char) : Bool := '0' ≤ c && c ≤ '9'

def digitValue (c : Char) : Nat := c.toNat - '0'.toNat

def digitsValue (cs : List Char) : Nat := cs.foldl (fun n c => 10 * n + digitValue c) 0

def splitSign : List Char → Bool × List Char
  | '-' :: cs => (true, cs)
  | '+' :: cs => (false, cs)
  | cs => (false, cs)

/-- The value of the exponent part, which is empty or `e`, an optional sign and digits. -/
def exponent? : List Char → Option Int
  | [] => some 0
  | c :: cs =>
      let (negative, ds) := splitSign cs
      if c.toLower = 'e' && !ds.isEmpty && ds.all isDigit then
        some (if negative then -(digitsValue ds : Int) else digitsValue ds)
      else none

def splitFraction : List Char → List Char × List Char
  | '.' :: cs => (cs.takeWhile isDigit, cs.dropWhile isDigit)
  | cs => ([], cs)

def unsigned? (negative : Bool) (cs : List Char) : Option Numeral :=
  let word := String.ofList (cs.map Char.toLower)
  if word = "inf" || word = "infinity" then some (.infinite negative)
  else if word = "nan" then some .nan
  else
    let whole := cs.takeWhile isDigit
    let (fraction, rest) := splitFraction (cs.dropWhile isDigit)
    if whole.isEmpty && fraction.isEmpty then none
    else (exponent? rest).map fun e =>
      .decimal negative (digitsValue (whole ++ fraction)) (e - fraction.length)

def read? (cs : List Char) : Option Numeral :=
  let (negative, rest) := splitSign cs
  unsigned? negative rest

/-- The number a numeral denotes; a NaN denotes none. -/
def value? : Numeral → Option Binary64
  | .decimal negative digits exponent => some (.nearest negative digits exponent)
  | .infinite negative => some (.infinity negative)
  | .nan => none

/-- The number that a text denotes, if it is a numeral between blanks and not a NaN. -/
def number? (text : String) : Option Binary64 :=
  (read? (Text.trimEnd (Text.trimStart text.toList))).bind value?

example : number? " 2.5e1 " = number? "25" := by decide +kernel
example : number? "1e400" = some (.infinity false) ∧ number? "-0" = some ⟨0x8000000000000000⟩ := by
  decide +kernel
example : number? "." = none ∧ number? "nan" = none ∧ number? "1e" = none := by decide +kernel

end Numeral
end WordGraph
