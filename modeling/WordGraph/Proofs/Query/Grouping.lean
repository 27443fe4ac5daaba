import WordGraph.Proofs.Distinct
import WordGraph.Proofs.Query.Narrowing

/-!
Which predicates are in which group. No two groups of a command have the same name, and a group has
all predicates about its name in the order in which they are written; so every predicate of a command
is in one of its groups and in no other.
-/

namespace WordGraph

def PredicateItem.predicate? : PredicateItem → Option Predicate
  | .predicate p => some p
  | .combinator _ => none

theorem PredicateItem.map_snd_about (name : String) (before : Option Combinator)
    (items : List PredicateItem) :
    (about name before items).map Prod.snd = (items.filterMap predicate?).filter (·.identifier = name) := by
  induction items generalizing before with
  | nil => rfl
  | cons item items ih =>
      cases item with
      | combinator c => exact ih (some c)
      | predicate p =>
          have here : (PredicateItem.predicate p :: items).filterMap predicate? =
              p :: items.filterMap predicate? := rfl
          rw [about, here]
          by_cases same : p.identifier = name
          · rw [if_pos same, List.filter_cons_of_pos (by simpa using same), List.map_cons, ih]
          · rw [if_neg same, List.filter_cons_of_neg (by simpa using same), ih]

namespace PredicateGroup

def members (g : PredicateGroup) : List Predicate := g.first :: g.rest.map Prod.snd

/-- Says of a node that the predicates of a group, joined from the left, hold of it. -/
def Holds (g : PredicateGroup) (n : Node) : Prop := g.first.HoldsWith g.rest n

theorem members_of_ofPredicates? {row : List (Option Combinator × Predicate)} {g : PredicateGroup}
    (made : ofPredicates? row = some g) : g.members = row.map Prod.snd := by
  cases row with
  | nil => cases made
  | cons r rest =>
      cases made
      rw [members, List.map_map, List.map_cons]
      rfl

theorem identifiers_place (groups : List PredicateGroup) (c : Combinator) (p : Predicate) :
    (place groups c p).map identifier =
      if p.identifier ∈ groups.map identifier then groups.map identifier
      else groups.map identifier ++ [p.identifier] := by
  have known : groups.any (·.identifier = p.identifier) = true ↔
      p.identifier ∈ groups.map identifier := by
    simp [List.any_eq_true, List.mem_map]
  have kept (g : PredicateGroup) : (if g.identifier = p.identifier then
      { g with rest := g.rest ++ [(c, p)] } else g).identifier = g.identifier := by
    split <;> rfl
  rw [place]
  by_cases old : p.identifier ∈ groups.map identifier
  · rw [if_pos (known.2 old), if_pos old, List.map_map]
    exact List.map_congr_left fun g _ => kept g
  · rw [if_neg (mt known.1 old), if_neg old, List.map_append]
    rfl

theorem nodup_collect {groups : List PredicateGroup} (distinct : (groups.map identifier).Nodup)
    (before : Option Combinator) (items : List PredicateItem) :
    ((collect groups before items).map identifier).Nodup := by
  fun_induction collect groups before items with
  | case1 groups before => exact distinct
  | case2 groups before c items ih => exact ih distinct
  | case3 groups before p items ih =>
      apply ih
      rw [identifiers_place]
      split
      · exact distinct
      · rename_i new
        exact List.nodup_append.2 ⟨distinct, List.nodup_singleton _, fun x hx y hy same =>
          new (List.mem_singleton.1 hy ▸ same ▸ hx)⟩

theorem find?_of_mem {groups : List PredicateGroup} (distinct : (groups.map identifier).Nodup)
    {g : PredicateGroup} (listed : g ∈ groups) :
    groups.find? (·.identifier = g.identifier) = some g := by
  cases found : groups.find? (·.identifier = g.identifier) with
  | none => exact absurd (by simp) (List.find?_eq_none.1 found g listed)
  | some h =>
      exact congrArg some (List.inj_on_of_nodup_map distinct (List.mem_of_find?_eq_some found) listed
        (identifier_of_find? found))

end PredicateGroup

namespace Command

/-- The predicates of a command in the order in which they are written. -/
def written (c : Command) : List Predicate := c.predicates.filterMap PredicateItem.predicate?

theorem mem_written_iff (c : Command) (p : Predicate) : p ∈ c.written ↔ .predicate p ∈ c.predicates := by
  rw [written, List.mem_filterMap]
  constructor
  · intro ⟨item, mem, same⟩
    cases item with
    | predicate q => exact Option.some.inj same ▸ mem
    | combinator _ => cases same
  · intro mem
    exact ⟨_, mem, rfl⟩

/-- Sorting the groups by the patterns keeps their names distinct. -/
theorem nodup_groups (c : Command) : (c.groups.map PredicateGroup.identifier).Nodup := by
  have collected := @PredicateGroup.nodup_collect [] List.nodup_nil none c.predicates
  rw [groups]
  generalize PredicateGroup.collect [] none c.predicates = all at collected ⊢
  have distinct := Distinct.nodup_eraseDups (c.nodePatterns.map Pattern.identifier)
  generalize (c.nodePatterns.map Pattern.identifier).eraseDups = names at distinct ⊢
  have first : ((names.filterMap fun name => all.find? (·.identifier = name)).map
      PredicateGroup.identifier).Sublist names := by
    clear distinct
    induction names with
    | nil => exact .slnil
    | cons name names ih =>
        cases found : all.find? (·.identifier = name) with
        | none =>
            simp only [List.filterMap_cons, found]
            exact ih.cons name
        | some g =>
            simp only [List.filterMap_cons, found, List.map_cons,
              PredicateGroup.identifier_of_find? found]
            exact ih.cons_cons name
  rw [List.map_append]
  refine List.nodup_append.2 ⟨distinct.sublist first,
    collected.sublist (List.filter_sublist.map _), fun x hx y hy same => ?_⟩
  obtain ⟨g, outside, rfl⟩ := List.mem_map.1 hy
  exact absurd (same ▸ first.subset hx) (by simpa using (List.mem_filter.1 outside).2)

theorem group?_of_mem {c : Command} {g : PredicateGroup} (listed : g ∈ c.groups) :
    c.group? g.identifier = some g := PredicateGroup.find?_of_mem c.nodup_groups listed

theorem members_of_mem {c : Command} {g : PredicateGroup} (listed : g ∈ c.groups) :
    g.members = c.written.filter (·.identifier = g.identifier) := by
  have found := group?_of_mem listed
  rw [c.group?_eq] at found
  rw [PredicateGroup.members_of_ofPredicates? found, PredicateItem.map_snd_about, written]

/-- Says that a predicate is in one group, which has its name and all predicates about it. -/
structure Grouped (c : Command) (p : Predicate) (g : PredicateGroup) : Prop where
  alone : c.groups.filter (p ∈ ·.members) = [g]
  named : g.identifier = p.identifier
  members_eq : g.members = c.written.filter (·.identifier = p.identifier)

theorem exists_group {c : Command} {p : Predicate} (mem : p ∈ c.written) :
    ∃ g, c.group? p.identifier = some g := by
  have here : p ∈ (PredicateItem.about p.identifier none c.predicates).map Prod.snd := by
    rw [PredicateItem.map_snd_about]
    exact List.mem_filter.2 ⟨mem, by simp⟩
  rw [c.group?_eq]
  cases about : PredicateItem.about p.identifier none c.predicates with
  | nil =>
      rw [about] at here
      cases here
  | cons r rest => exact ⟨_, rfl⟩

theorem grouped_of_group? {c : Command} {p : Predicate} (mem : p ∈ c.written) {g : PredicateGroup}
    (found : c.group? p.identifier = some g) : c.Grouped p g := by
  have listed : g ∈ c.groups := List.mem_of_find?_eq_some found
  have named : g.identifier = p.identifier := PredicateGroup.identifier_of_find? found
  have inside {h : PredicateGroup} (hh : h ∈ c.groups) : p ∈ h.members ↔ h = g := by
    rw [members_of_mem hh, List.mem_filter, decide_eq_true_eq]
    constructor
    · intro ⟨_, same⟩
      exact List.inj_on_of_nodup_map c.nodup_groups hh listed (same.symm.trans named.symm)
    · intro same
      exact ⟨mem, same ▸ named.symm⟩
  refine ⟨?_, named, named ▸ members_of_mem listed⟩
  rw [List.filter_congr fun h hh => decide_eq_decide.2 (inside hh), List.filter_eq,
    List.count_eq_one_of_mem (c.nodup_groups.of_map _) listed]
  rfl

/-- What a command says about a name is what its group of that name says. -/
theorem demands_iff {c : Command} {name : String} {g : PredicateGroup}
    (found : c.group? name = some g) (n : Node) : c.Demands name n ↔ g.Holds n := by
  rw [c.group?_eq] at found
  rw [Demands, PredicateGroup.Holds]
  cases about : PredicateItem.about name none c.predicates with
  | nil =>
      rw [about] at found
      cases found
  | cons r rest =>
      rw [about] at found
      cases found
      exact Iff.rfl

end Command
end WordGraph
