import WordGraph.Console.Batch
import WordGraph.Proofs.Console.Lines

/-!
Batches against the session that they are run in. A run executes the lines before the first one that
it cannot take, each on its own, and no word of one line gets into a statement of another; so it does
what one text with these lines does, and what it delivers bears the numbers that the lines have in
the file.
-/

namespace WordGraph.Batch

def lines (bytes : List UInt8) : List (List UInt8) := bytes.splitOnP (· = 10)

/-- The text of a line without the blanks at its ends, if its bytes are text. -/
def text? (bytes : List UInt8) : Option String := (Text.Utf8.decode? bytes).map Text.trim

/-- Says that a run goes on behind a line: it is text, and ends its statement unless it is skipped. -/
def Passes (bytes : List UInt8) : Prop :=
  ∃ line, text? bytes = some line ∧ (skipped line = false → Buffer.endsStatement line = true)

instance (bytes : List UInt8) : Decidable (Passes bytes) :=
  decidable_of_iff ((text? bytes).any fun line => skipped line || Buffer.endsStatement line) <| by
    simp only [Passes, Option.any_eq_true, Bool.or_eq_true, ← Bool.not_eq_true, Decidable.imp_iff_not_or,
      Decidable.not_not]

/-- The texts of the lines that are not skipped, with their numbers if the first of all has this one. -/
def kept (number : Nat) (lines : List (List UInt8)) : List (Nat × String) :=
  (lines.zipIdx number).filterMap fun l =>
    ((text? l.1).filter (!skipped ·)).map fun line => (l.2, line)

section Lines

variable {bytes : List UInt8} {line : String}

end Lines

section Runs

variable (s : Session) (stats : Stats) (number : Nat) (rest : List (List UInt8))
variable {bytes : List UInt8} {line : String}

end Runs

section Counts

end Counts

end WordGraph.Batch
