import WordGraph.Query.Command

/-!
The predicates of a command sorted by the name they are about. Within a group they keep their order,
each behind the first with the combinator written before it, or AND if none was written.
-/

namespace WordGraph

/-- A first predicate, and further ones with the combinators that join them from the left. -/
structure PredicateGroup where
  identifier : String
  first : Predicate
  rest : List (Combinator × Predicate)
  deriving DecidableEq

namespace PredicateGroup

def size (g : PredicateGroup) : Nat := 1 + g.rest.length

def text (g : PredicateGroup) : String :=
  " ".intercalate (g.first.text :: g.rest.flatMap fun r => [r.1.word, r.2.text])

/-- Puts `p` at the end of the group of its name, or opens that group. -/
def place (groups : List PredicateGroup) (combinator : Combinator) (p : Predicate) :
    List PredicateGroup :=
  if groups.any (·.identifier = p.identifier) then
    groups.map fun g =>
      if g.identifier = p.identifier then { g with rest := g.rest ++ [(combinator, p)] } else g
  else groups ++ [⟨p.identifier, p, []⟩]

def collect : List PredicateGroup → Option Combinator → List PredicateItem → List PredicateGroup
  | groups, _, [] => groups
  | groups, _, .combinator c :: items => collect groups (some c) items
  | groups, pending, .predicate p :: items => collect (place groups (pending.getD .and) p) none items

end PredicateGroup

namespace Command

/-- The groups of a command. Those about a node pattern come first, in the order of the patterns. -/
def groups (c : Command) : List PredicateGroup :=
  let collected := PredicateGroup.collect [] none c.predicates
  let names := (c.nodePatterns.map Pattern.identifier).eraseDups
  names.filterMap (fun name => collected.find? (·.identifier = name)) ++
    collected.filter (·.identifier ∉ names)

def group? (c : Command) (identifier : String) : Option PredicateGroup :=
  c.groups.find? (·.identifier = identifier)

def text (c : Command) : String :=
  " ".intercalate (c.keyword.word :: c.patterns.map Pattern.text ++
    c.groups.map fun g => "[" ++ g.identifier ++ ": " ++ g.text ++ "]")

end Command
end WordGraph
