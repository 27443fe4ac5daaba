import WordGraph.Query.Command

/-!
The words of a query text and their classes. A semicolon at the end of a longer word stands for a
word of its own; a word with a colon, a comparison sign or a semicolon in any other place than the
grammar allows is no token.
-/

namespace WordGraph

/-- Splits a semicolon off the end of a word that has something before it. -/
def detachTerminator (w : List Char) : List String :=
  match w.getLast? with
  | some ';' =>
      if w.dropLast.isEmpty then [String.ofList w] else [String.ofList w.dropLast, ";"]
  | _ => [String.ofList w]

def splitWords (text : String) : List String := (Text.words text.toList).flatMap detachTerminator

inductive Token where
  | keyword (k : Keyword)
  | marker (role : Role)
  | pair (key value : String)
  | predicate (key : String) (comparison : Comparison) (threshold : String)
  | terminator
  | name (w : String)
  | unknown (w : String)
  deriving DecidableEq

namespace Token

def markerRole? (w : String) : Option Role :=
  [Role.node, .edge, .bool].find? fun r => Text.foldCase r.marker = Text.foldCase w

def isComparison (c : Char) : Bool := (Comparison.ofSymbol? c).isSome

/-- Reads `key:value`: one colon with something on both sides, and no other sign. -/
def pair? (cs : List Char) : Option Token :=
  let key := cs.takeWhile (· ≠ ':')
  match cs.dropWhile (· ≠ ':') with
  | _ :: value =>
      if key.isEmpty || value.isEmpty || key.any isReserved || value.any isReserved then none
      else some (.pair (String.ofList key) (String.ofList value))
  | [] => none

/-- Reads a key, one comparison sign and a threshold, with no other sign. -/
def predicate? (cs : List Char) : Option Token :=
  let key := cs.takeWhile fun c => !isComparison c
  match cs.dropWhile fun c => !isComparison c with
  | sign :: threshold =>
      if key.isEmpty || threshold.isEmpty || key.any isReserved || threshold.any isReserved then none
      else (Comparison.ofSymbol? sign).map fun c =>
        .predicate (String.ofList key) c (String.ofList threshold)
  | [] => none

def name? (cs : List Char) : Option Token :=
  if cs.isEmpty || cs.any isReserved then none else some (.name (String.ofList cs))

/-- The class of a word. The tests are tried in this order and the first that succeeds decides. -/
def ofWord (w : String) : Token :=
  let cs := w.toList
  if w = ";" then .terminator
  else (((((Keyword.ofWord? w).map keyword).or ((markerRole? w).map marker)).or
    (pair? cs)).or (predicate? cs)).or (name? cs) |>.getD (.unknown w)

end Token
end WordGraph
