import Mathlib.Data.List.Forall2
import WordGraph.Query.Statement

/-!
The grammar of statements as trees. A statement is a sequence of commands; the first has any keyword,
the others are RETURN, and all but the last have a pattern. A tree says which tokens it stands for and
which command it means.
-/

namespace WordGraph.Grammar

/-- A comparison as it is written. -/
structure Clause where
  key : String
  comparison : Comparison
  threshold : String

/-- A part of a pattern: a pair, or a comparison and more of them with the words that join them. -/
inductive Item where
  | pair (key value : String)
  | clauses (first : Clause) (rest : List (String × Clause))

structure PatternTree where
  role : Role
  name : String
  items : List Item

structure CommandTree where
  keyword : Keyword
  patterns : List PatternTree

section Tokens

def Clause.token (c : Clause) : Token := .predicate c.key c.comparison c.threshold

def Item.tokens : Item → List Token
  | .pair key value => [.pair key value]
  | .clauses first rest => first.token :: rest.flatMap fun r => [.name r.1, r.2.token]

def PatternTree.tokens (p : PatternTree) : List Token :=
  .marker p.role :: .name p.name :: p.items.flatMap Item.tokens

def CommandTree.tokens (t : CommandTree) : List Token :=
  .keyword t.keyword :: t.patterns.flatMap PatternTree.tokens

end Tokens

section Conditions

def BlankFree (s : String) : Prop := ∀ c ∈ s.toList, Text.isBlank c = false

instance (s : String) : Decidable (BlankFree s) :=
  inferInstanceAs (Decidable (∀ c ∈ s.toList, Text.isBlank c = false))

/-- The pairs that a pattern may have. A boolean pattern only has a truth value. -/
def Permitted (role : Role) (key value : String) : Prop :=
  BlankFree key ∧ BlankFree value ∧ (role = .bool → key = boolKey ∧ (value = "0" ∨ value = "1"))

instance (role : Role) (key value : String) : Decidable (Permitted role key value) :=
  inferInstanceAs (Decidable (_ ∧ _ ∧ (role = .bool → key = boolKey ∧ (value = "0" ∨ value = "1"))))

def Item.Valid (role : Role) : Item → Prop
  | .pair key value => Permitted role key value
  | .clauses _ rest => ∀ r ∈ rest, (Combinator.ofWord? r.1).isSome = true

def PatternTree.Valid (p : PatternTree) : Prop := ∀ i ∈ p.items, i.Valid p.role

def CommandTree.Valid (t : CommandTree) : Prop := ∀ p ∈ t.patterns, p.Valid

/-- Says that commands may stand one behind another in a statement. -/
structure WellFormed (trees : List CommandTree) : Prop where
  valid : ∀ t ∈ trees, t.Valid
  returning : ∀ t ∈ trees.tail, t.keyword = .returning
  filled : ∀ t ∈ trees.dropLast, t.patterns ≠ []

/-- Says that the words before the semicolon of a statement are those of well-formed commands. -/
structure Derives (trees : List CommandTree) (words : List String) : Prop where
  wellFormed : WellFormed trees
  tokens_eq : words.map Token.ofWord = trees.flatMap CommandTree.tokens

end Conditions

section Meaning

def Clause.meaning (name : String) (c : Clause) : PredicateItem :=
  .predicate ⟨c.key, c.comparison, c.threshold, name⟩

def joint (w : String) : PredicateItem := .combinator ((Combinator.ofWord? w).getD .and)

def Item.pairs : Item → List (String × String)
  | .pair key value => [(key, value)]
  | .clauses _ _ => []

def Item.predicates (name : String) : Item → List PredicateItem
  | .pair _ _ => []
  | .clauses first rest => first.meaning name :: rest.flatMap fun r => [joint r.1, r.2.meaning name]

def PatternTree.pairs (p : PatternTree) : List (String × String) := p.items.flatMap Item.pairs

def PatternTree.predicates (p : PatternTree) : List PredicateItem :=
  p.items.flatMap (Item.predicates p.name)

/-- The truth values that the pairs of a boolean pattern give. -/
def PatternTree.flags (p : PatternTree) : List Bool :=
  if p.role = .bool then p.pairs.map (·.2 = "1") else []

/-- The pattern that a tree means: of the pairs with one key the place of the first counts and the
value of the last. -/
structure PatternTree.Yields (t : PatternTree) (p : Pattern) : Prop where
  role_eq : p.role = t.role
  identifier_eq : p.identifier = t.name
  keys_eq : p.attributes.table.keys = (t.pairs.map Prod.fst).eraseDups
  get?_eq : ∀ key, p.attributes.get? key = (t.pairs.filter (·.1 = key)).getLast?.map Prod.snd

/-- The command that a tree means. Its predicates stand in the order of the words, each tagged with
the name of its pattern; the last truth value counts. -/
structure CommandTree.Yields (t : CommandTree) (c : Command) : Prop where
  keyword_eq : c.keyword = t.keyword
  patterns : List.Forall₂ PatternTree.Yields t.patterns c.patterns
  predicates_eq : c.predicates = t.patterns.flatMap PatternTree.predicates
  flag_eq : c.flag = (t.patterns.flatMap PatternTree.flags).getLast?

end Meaning
end WordGraph.Grammar
