import WordGraph.Query.Group

/-!
The rules that a command has to obey before it is carried out: the patterns that its keyword takes,
and the patterns on which predicates may stand.
-/

namespace WordGraph

inductive RuleFault where
  | predicates
  | noNode
  | onlyNodes
  | tooShort
  | notAlternating
  | noPattern
  | boolPattern
  | expected (roles : List Role)
  | noFlag
  | patterns
  | onlyNodesReturned
  | attributesReturned
  | strayPredicate (p : Predicate)
  | ambiguous (identifier : String)
  | missingFlag
  | described (text : String)
  deriving DecidableEq

def RuleFault.message : RuleFault → String
  | predicates => "predicates are not allowed"
  | noNode => "at least one node pattern is required"
  | onlyNodes => "only node patterns are allowed"
  | tooShort => "expected at least n: e: n:"
  | notAlternating => "patterns must alternate n: e: ... n:"
  | noPattern => "at least one pattern is required"
  | boolPattern => "boolean patterns are not allowed"
  | expected roles => "expected patterns [" ++ " ".intercalate (roles.map Role.marker) ++ "]"
  | noFlag => "boolean pattern must carry val:0 or val:1"
  | patterns => "takes no patterns"
  | onlyNodesReturned => "only n: patterns may be returned"
  | attributesReturned => "returned patterns carry no attributes"
  | strayPredicate p => "predicate " ++ p.text ++ " on '" ++ p.identifier ++ "' is not allowed here"
  | ambiguous identifier => "identifier '" ++ identifier ++ "' names more than one kind of pattern"
  | missingFlag => "missing val"
  | described text => text

/-- Says that the roles are node, edge, node and so on, with a node at both ends. -/
def alternates : List Role → Bool
  | [.node] => true
  | .node :: .edge :: rest => alternates rest
  | _ => false

namespace Command

/-- The patterns that predicates narrow, and the others. -/
def narrowed (c : Command) : List Pattern × List Pattern :=
  match c.keyword with
  | .matching | .createEdge | .deleteNode | .hasPath | .shortestPath | .hasEdge | .commonNeighbors
  | .neighbor => c.patterns.partition (·.role = .node)
  | .modifyNode => (c.patterns.take 1, c.patterns.drop 1)
  | _ => ([], c.patterns)

/-- A predicate has to be about a pattern that it narrows, and about no other pattern. -/
def checkPredicate (c : Command) : PredicateItem → Except RuleFault Unit
  | .combinator _ => .ok ()
  | .predicate p =>
      if !c.narrowed.1.any (·.identifier = p.identifier) then .error (.strayPredicate p)
      else if c.narrowed.2.any (·.identifier = p.identifier) then .error (.ambiguous p.identifier)
      else .ok ()

def require (condition : Bool) (fault : RuleFault) : Except RuleFault Unit :=
  if condition then .ok () else .error fault

def checkExactly (c : Command) (roles : List Role) : Except RuleFault Unit :=
  require (c.roles = roles) (.expected roles)

def checkPatterns (c : Command) : Except RuleFault Unit :=
  match c.keyword with
  | .create => do
      require c.predicates.isEmpty .predicates
      require (!c.roles.isEmpty) .noNode
      require (c.roles.all (· = .node)) .onlyNodes
  | .createEdge => do
      require (3 ≤ c.roles.length) .tooShort
      require (alternates c.roles) .notAlternating
  | .matching => do
      require (!c.roles.isEmpty) .noPattern
      require (.bool ∉ c.roles) .boolPattern
      require (c.roles.length = 1 || alternates c.roles) .notAlternating
  | .modifyNode => do
      c.checkExactly [.node, .node, .bool]
      require c.flag.isSome .noFlag
  | .modifyEdge => do
      c.checkExactly [.edge, .edge, .bool]
      require c.flag.isSome .noFlag
  | .deleteNode | .neighbor => c.checkExactly [.node]
  | .deleteEdge => c.checkExactly [.edge]
  | .hasPath | .shortestPath | .hasEdge | .commonNeighbors => c.checkExactly [.node, .node]
  | .clear | .showing | .visualize => require c.roles.isEmpty .patterns
  | .returning => do
      require (c.roles.all (· = .node)) .onlyNodesReturned
      require (c.patterns.all (·.attributes.isEmpty)) .attributesReturned

def check (c : Command) : Except RuleFault Unit := do
  c.checkPatterns
  c.predicates.forM c.checkPredicate

end Command
end WordGraph
