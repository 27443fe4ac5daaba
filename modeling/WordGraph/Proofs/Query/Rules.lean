import Mathlib.Data.List.Basic
import WordGraph.Proofs.Failure
import WordGraph.Query.Rules

/-!
What a command obeys that passes its check: the roles of its patterns, as its keyword asks for them,
and the places on which its predicates stand.
-/

namespace WordGraph

theorem length_of_alternates {roles : List Role} (h : alternates roles = true) :
    roles.length % 2 = 1 := by
  fun_induction alternates roles with
  | case1 => rfl
  | case2 rest ih =>
      have := ih h
      simp only [List.length_cons]
      omega
  | case3 => cases h

namespace Command

/-- Says that a command has the patterns that its keyword asks for, and what else it needs. -/
def Shaped (c : Command) : Prop :=
  match c.keyword with
  | .create => c.predicates = [] ∧ c.roles ≠ [] ∧ ∀ r ∈ c.roles, r = .node
  | .createEdge => 3 ≤ c.roles.length ∧ alternates c.roles = true
  | .matching => c.roles ≠ [] ∧ .bool ∉ c.roles ∧ (c.roles.length = 1 ∨ alternates c.roles = true)
  | .modifyNode => c.roles = [.node, .node, .bool] ∧ c.flag.isSome = true
  | .modifyEdge => c.roles = [.edge, .edge, .bool] ∧ c.flag.isSome = true
  | .deleteNode | .neighbor => c.roles = [.node]
  | .deleteEdge => c.roles = [.edge]
  | .hasPath | .shortestPath | .hasEdge | .commonNeighbors => c.roles = [.node, .node]
  | .clear | .showing | .visualize => c.roles = []
  | .returning => (∀ r ∈ c.roles, r = .node) ∧ ∀ p ∈ c.patterns, p.attributes.isEmpty = true

theorem require_eq_ok_iff (condition : Bool) (fault : RuleFault) :
    require condition fault = .ok () ↔ condition = true := by
  cases condition <;> simp [require]

theorem checkPatterns_eq_ok_iff (c : Command) : c.checkPatterns = .ok () ↔ c.Shaped := by
  rw [checkPatterns, Shaped]
  cases c.keyword <;>
    simp [checkExactly, Except.check_bind_eq_ok_iff, require_eq_ok_iff, -bind_pure_comp]

theorem check_eq_ok_iff (c : Command) :
    c.check = .ok () ↔ c.Shaped ∧ ∀ item ∈ c.predicates, c.checkPredicate item = .ok () := by
  rw [← checkPatterns_eq_ok_iff, ← Except.forM_eq_ok_iff]
  exact Except.check_bind_eq_ok_iff c.checkPatterns _ _

end Command
end WordGraph
