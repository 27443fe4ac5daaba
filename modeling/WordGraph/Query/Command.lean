import WordGraph.Graph.Entity
import WordGraph.Query.Keyword

/-!
Commands as the query language writes them: a keyword, patterns with a role, a name and attributes,
and predicates that narrow the pattern whose name they follow.
-/

namespace WordGraph

inductive Role where
  | node
  | edge
  | bool
  deriving DecidableEq

def Role.marker : Role → String
  | .node => "n:"
  | .edge => "e:"
  | .bool => "b:"

structure Pattern where
  role : Role
  identifier : String
  attributes : Attributes
  deriving DecidableEq

def Pattern.text (p : Pattern) : String :=
  " ".intercalate
    (p.role.marker :: p.identifier :: p.attributes.toList.map fun e => e.1 ++ ":" ++ e.2)

inductive Comparison where
  | less
  | greater
  | equal
  deriving DecidableEq

namespace Comparison

def symbol : Comparison → Char
  | less => '<'
  | greater => '>'
  | equal => '='

def ofSymbol? : Char → Option Comparison
  | '<' => some less
  | '>' => some greater
  | '=' => some equal
  | _ => none

end Comparison

inductive Combinator where
  | and
  | or
  deriving DecidableEq

namespace Combinator

def word : Combinator → String
  | and => "AND"
  | or => "OR"

def ofWord? (w : String) : Option Combinator :=
  [and, or].find? fun c => Text.foldCase c.word = Text.foldCase w

end Combinator

/-- A comparison of the attribute `key` with a threshold, about the pattern called `identifier`. -/
structure Predicate where
  key : String
  comparison : Comparison
  threshold : String
  identifier : String
  deriving DecidableEq

def Predicate.text (p : Predicate) : String :=
  p.key ++ String.singleton p.comparison.symbol ++ p.threshold

inductive PredicateItem where
  | predicate (p : Predicate)
  | combinator (c : Combinator)
  deriving DecidableEq

structure Command where
  keyword : Keyword
  patterns : List Pattern := []
  predicates : List PredicateItem := []
  /-- The truth value of the boolean pattern, if one was given. -/
  flag : Option Bool := none
  deriving DecidableEq

namespace Command

def roles (c : Command) : List Role := c.patterns.map Pattern.role
def countRole (c : Command) (role : Role) : Nat := c.roles.count role
def nodePatterns (c : Command) : List Pattern := c.patterns.filter (·.role = .node)

end Command
end WordGraph
