import Mathlib.Data.List.Nodup
import WordGraph.Proofs.Graph.Select
import WordGraph.Query.Session

/-!
What predicates mean. The predicates about a name are judged for each node on its own and joined from
the left; sorting them into groups, filtering by every predicate of a group and combining the
results keeps exactly the nodes for which that holds.
-/

namespace WordGraph

section Meaning

/-- The predicates about a name in the order in which they are written, each with the combinator that
stands directly before it. -/
def PredicateItem.about (name : String) :
    Option Combinator → List PredicateItem → List (Option Combinator × Predicate)
  | _, [] => []
  | _, .combinator c :: items => about name (some c) items
  | before, .predicate p :: items =>
      if p.identifier = name then (before, p) :: about name none items else about name none items

/-- Two conditions joined as a combinator says. -/
def Combinator.Joins : Combinator → Prop → Prop → Prop
  | .and, held, next => held ∧ next
  | .or, held, next => held ∨ next

/-- A first predicate and further ones joined to it from the left, without precedence. -/
def Predicate.HoldsWith (first : Predicate) (rest : List (Combinator × Predicate)) (n : Node) : Prop :=
  rest.foldl (fun held r => r.1.Joins held (r.2.Holds n)) (first.Holds n)

/-- Says of a node that it satisfies all that a command says about a name. Where no combinator is
written, AND is meant. -/
def Command.Demands (c : Command) (name : String) (n : Node) : Prop :=
  match PredicateItem.about name none c.predicates with
  | [] => True
  | (_, first) :: rest => first.HoldsWith (rest.map fun r => (r.1.getD .and, r.2)) n

/-- Says of a node that a pattern of a command selects it. -/
def Command.Selects (c : Command) (p : Pattern) (n : Node) : Prop :=
  n.attributes.includes p.attributes = true ∧ c.Demands p.identifier n

end Meaning

/-- Says that a list has those of the nodes for which `P` holds, and each of them once. -/
structure Keeps (nodes kept : List Node) (P : Node → Prop) : Prop where
  nodup : (kept.map Node.id).Nodup
  mem_iff : ∀ n, n ∈ kept ↔ n ∈ nodes ∧ P n

namespace Keeps

variable {nodes kept : List Node} {P Q : Node → Prop}

theorem congr (h : Keeps nodes kept P) (same : ∀ n, P n ↔ Q n) : Keeps nodes kept Q where
  nodup := h.nodup
  mem_iff n := by rw [h.mem_iff, same]

theorem filter (distinct : (nodes.map Node.id).Nodup) {p : Node → Bool}
    (meaning : ∀ n, p n = true ↔ P n) : Keeps nodes (nodes.filter p) P where
  nodup := distinct.sublist (List.filter_sublist.map Node.id)
  mem_iff n := by rw [List.mem_filter, meaning]

theorem trans {inner : List Node} (h : Keeps nodes kept P) (h' : Keeps kept inner Q) :
    Keeps nodes inner fun n => P n ∧ Q n where
  nodup := h'.nodup
  mem_iff n := by rw [h'.mem_iff, h.mem_iff, and_assoc]

theorem mem_of_id (distinct : (nodes.map Node.id).Nodup) (h : Keeps nodes kept P) {n : Node}
    (hn : n ∈ nodes) (met : n.id ∈ kept.map Node.id) : n ∈ kept := by
  obtain ⟨m, hm, same⟩ := List.mem_map.1 met
  have stored := ((h.mem_iff m).1 hm).1
  exact List.inj_on_of_nodup_map distinct stored hn same ▸ hm

theorem and (distinct : (nodes.map Node.id).Nodup) {next : List Node} (h : Keeps nodes kept P)
    (h' : Keeps nodes next Q) :
    Keeps nodes (PredicateGroup.combine kept .and next) fun n => P n ∧ Q n where
  nodup := h.nodup.sublist (List.filter_sublist.map Node.id)
  mem_iff n := by
    simp only [PredicateGroup.combine, List.mem_filter, decide_eq_true_eq]
    constructor
    · intro ⟨first, second⟩
      have stored := (h.mem_iff n).1 first
      exact ⟨stored.1, stored.2, ((h'.mem_iff n).1 (h'.mem_of_id distinct stored.1 second)).2⟩
    · intro ⟨stored, first, second⟩
      exact ⟨(h.mem_iff n).2 ⟨stored, first⟩,
        List.mem_map_of_mem ((h'.mem_iff n).2 ⟨stored, second⟩)⟩

/-- A node that is added is there afterwards, whether or not it was there before. -/
theorem add (distinct : (nodes.map Node.id).Nodup) (h : Keeps nodes kept P) {m : Node}
    (hm : m ∈ nodes) :
    Keeps nodes (if m.id ∈ kept.map Node.id then kept else kept ++ [m]) fun n => P n ∨ n = m := by
  split
  · rename_i met
    have there := ((h.mem_iff m).1 (h.mem_of_id distinct hm met)).2
    exact h.congr fun n => ⟨Or.inl, fun one => one.elim id fun same => same ▸ there⟩
  · rename_i new
    refine ⟨?_, fun n => ?_⟩
    · rw [List.map_append, List.map_singleton]
      exact List.nodup_append.2 ⟨h.nodup, List.nodup_singleton _, fun x hx y hy same =>
        new (List.mem_singleton.1 hy ▸ same ▸ hx)⟩
    · rw [List.mem_append, List.mem_singleton, h.mem_iff]
      constructor
      · intro one
        rcases one with ⟨stored, held⟩ | same
        · exact ⟨stored, .inl held⟩
        · exact ⟨same ▸ hm, .inr same⟩
      · intro ⟨stored, one⟩
        exact one.imp (⟨stored, ·⟩) id

theorem or (distinct : (nodes.map Node.id).Nodup) {next : List Node} (h : Keeps nodes kept P)
    (h' : Keeps nodes next Q) :
    Keeps nodes (PredicateGroup.combine kept .or next) fun n => P n ∨ Q n := by
  have added (ms : List Node) (stored : ∀ m ∈ ms, m ∈ nodes) :
      ∀ {kept : List Node} {P : Node → Prop}, Keeps nodes kept P →
        Keeps nodes (PredicateGroup.combine kept .or ms) fun n => P n ∨ n ∈ ms := by
    induction ms with
    | nil => exact fun h => h.congr fun n => by simp
    | cons m ms ih =>
        intro kept P h
        have step := h.add distinct (stored m (List.mem_cons_self ..))
        have rest := ih (fun x hx => stored x (List.mem_cons_of_mem _ hx)) step
        exact rest.congr fun n => by rw [List.mem_cons, or_assoc]
  have whole := added next (fun m hm => ((h'.mem_iff m).1 hm).1) h
  refine ⟨whole.nodup, fun n => ?_⟩
  rw [whole.mem_iff, h'.mem_iff]
  tauto

theorem combine (distinct : (nodes.map Node.id).Nodup) {next : List Node} (h : Keeps nodes kept P)
    (h' : Keeps nodes next Q) (c : Combinator) :
    Keeps nodes (PredicateGroup.combine kept c next) fun n => c.Joins (P n) (Q n) := by
  cases c with
  | and => exact h.and distinct h'
  | or => exact h.or distinct h'

end Keeps

section Filtering

variable {nodes : List Node} (distinct : (nodes.map Node.id).Nodup)
include distinct

theorem Predicate.filter_keeps (p : Predicate) : Keeps nodes (p.filter nodes).nodes p.Holds := by
  rw [Predicate.filter, filterNodes]
  cases limit : Numeral.number? p.threshold with
  | none =>
      refine ⟨List.nodup_nil, fun n => ⟨nofun, fun ⟨_, holds⟩ => ?_⟩⟩
      obtain ⟨_, _, _, numeric, _⟩ := holds
      rw [limit] at numeric
      cases numeric
  | some limit =>
      refine .filter distinct fun n => ?_
      simp only [Option.any_eq_true, Option.bind_eq_some_iff, Predicate.Holds, limit]
      constructor
      · intro ⟨value, ⟨text, stored, numeric⟩, compares⟩
        exact ⟨_, value, text, rfl, stored, numeric, compares⟩
      · intro ⟨_, value, text, same, stored, numeric, compares⟩
        cases same
        exact ⟨value, ⟨text, stored, numeric⟩, compares⟩

theorem PredicateGroup.filter_keeps (g : PredicateGroup) :
    Keeps nodes (g.filter nodes).nodes (g.first.HoldsWith g.rest) := by
  have folded (rest : List (Combinator × Predicate)) :
      ∀ (running : Filtered) (P : Node → Prop), Keeps nodes running.nodes P →
        Keeps nodes (rest.foldl (fun running r => ⟨combine running.nodes r.1 (r.2.filter nodes).nodes,
            running.warnings ++ (r.2.filter nodes).warnings⟩) running : Filtered).nodes
          fun n => rest.foldl (fun held r => r.1.Joins held (r.2.Holds n)) (P n) := by
    induction rest with
    | nil => exact fun _ _ h => h
    | cons r rest ih =>
        intro running P h
        exact ih _ _ (h.combine distinct (r.2.filter_keeps distinct) r.1)
  exact folded g.rest _ _ (g.first.filter_keeps distinct)

end Filtering

section Grouping

/-- The group that predicates about one name make, in their order. -/
def PredicateGroup.ofPredicates? : List (Option Combinator × Predicate) → Option PredicateGroup
  | [] => none
  | (_, first) :: rest => some ⟨first.identifier, first, rest.map fun r => (r.1.getD .and, r.2)⟩

/-- A group with further predicates behind it. -/
def PredicateGroup.append (g : PredicateGroup) (more : List (Option Combinator × Predicate)) :
    PredicateGroup :=
  { g with rest := g.rest ++ more.map fun r => (r.1.getD .and, r.2) }

theorem PredicateGroup.identifier_of_find? {groups : List PredicateGroup} {name : String}
    {g : PredicateGroup} (found : groups.find? (·.identifier = name) = some g) :
    g.identifier = name := by
  simpa using List.find?_some found

theorem PredicateGroup.find?_place (groups : List PredicateGroup) (c : Combinator) (p : Predicate)
    (name : String) :
    (place groups c p).find? (·.identifier = name) =
      if p.identifier = name then
        some (((groups.find? (·.identifier = name)).map fun g =>
          { g with rest := g.rest ++ [(c, p)] }).getD ⟨p.identifier, p, []⟩)
      else groups.find? (·.identifier = name) := by
  rw [place]
  by_cases known : groups.any (·.identifier = p.identifier) = true
  · have kept (g : PredicateGroup) : (if g.identifier = p.identifier then
        { g with rest := g.rest ++ [(c, p)] } else g).identifier = g.identifier := by
      split <;> rfl
    rw [if_pos known, List.find?_map]
    simp only [Function.comp_def, kept]
    cases found : groups.find? (·.identifier = name) with
    | none =>
        have other : p.identifier ≠ name := fun same => by
          obtain ⟨g, hg, here⟩ := List.any_eq_true.1 known
          exact List.find?_eq_none.1 found g hg (same ▸ here)
        rw [if_neg other, Option.map_none]
    | some g =>
        have named := identifier_of_find? found
        by_cases same : p.identifier = name
        · simp [same, named]
        · simp [same, named, Ne.symm same]
  · have absent : groups.find? (·.identifier = p.identifier) = none := by
      refine List.find?_eq_none.2 fun g hg here => known ?_
      exact List.any_eq_true.2 ⟨g, hg, here⟩
    rw [if_neg known, List.find?_append]
    by_cases same : p.identifier = name
    · subst same
      simp [absent]
    · simp [same]

theorem PredicateGroup.find?_collect (groups : List PredicateGroup) (before : Option Combinator)
    (items : List PredicateItem) (name : String) :
    (collect groups before items).find? (·.identifier = name) =
      match groups.find? (·.identifier = name) with
      | some g => some (g.append (PredicateItem.about name before items))
      | none => ofPredicates? (PredicateItem.about name before items) := by
  fun_induction collect groups before items with
  | case1 groups before =>
      cases groups.find? (·.identifier = name) with
      | none => rfl
      | some g => simp [append, PredicateItem.about]
  | case2 groups before c items ih => exact ih
  | case3 groups before p items ih =>
      rw [ih, find?_place, PredicateItem.about]
      by_cases same : p.identifier = name
      · rw [if_pos same, if_pos same]
        cases groups.find? (·.identifier = name) with
        | none => simp [append, ofPredicates?]
        | some g => simp [append]
      · rw [if_neg same, if_neg same]

/-- The order in which groups stand does not matter for what is found under a name. -/
theorem Command.find?_groups (c : Command) (name : String) :
    c.groups.find? (·.identifier = name) =
      (PredicateGroup.collect [] none c.predicates).find? (·.identifier = name) := by
  rw [groups]
  generalize PredicateGroup.collect [] none c.predicates = collected
  generalize (c.nodePatterns.map Pattern.identifier).eraseDups = names
  have first : (names.filterMap fun other => collected.find? (·.identifier = other)).find?
      (·.identifier = name) =
        if name ∈ names then collected.find? (·.identifier = name) else none := by
    induction names with
    | nil => rfl
    | cons other names ih =>
        by_cases here : other = name
        · subst here
          cases found : collected.find? (·.identifier = other) with
          | none => simp [found, ih]
          | some g => simp [found, PredicateGroup.identifier_of_find? found]
        · cases found : collected.find? (·.identifier = other) with
          | none => simp [found, ih, Ne.symm here]
          | some g => simp [found, PredicateGroup.identifier_of_find? found, here, ih, Ne.symm here]
  have second : (collected.filter (·.identifier ∉ names)).find? (·.identifier = name) =
      if name ∈ names then none else collected.find? (·.identifier = name) := by
    rw [List.find?_filter]
    split
    · rename_i inside
      refine List.find?_eq_none.2 fun g _ both => ?_
      simp only [decide_eq_true_eq] at both
      exact both.1 (both.2 ▸ inside)
    · rename_i outside
      congr 1
      funext g
      by_cases here : g.identifier = name
      · simp [here, outside]
      · simp [here]
  rw [List.find?_append, first, second]
  split
  · exact Option.or_none
  · exact Option.none_or

theorem Command.group?_eq (c : Command) (name : String) :
    c.group? name = PredicateGroup.ofPredicates? (PredicateItem.about name none c.predicates) := by
  rw [group?, find?_groups, PredicateGroup.find?_collect]
  rfl

end Grouping

namespace Session

theorem nodesWith_keeps (g : Graph) (filter : Attributes) :
    Keeps g.nodes (g.nodesWith filter) fun n => n.attributes.includes filter = true :=
  .filter (g.map_id_nodes ▸ g.nodeTable.keys_nodup) fun _ => Iff.rfl

/-- A pattern with its predicates picks out the nodes that it selects. -/
theorem matched_keeps (s : Session) (c : Command) (p : Pattern) :
    Keeps s.graph.nodes (s.matched c p).nodes (c.Selects p) := by
  have named := nodesWith_keeps s.graph p.attributes
  rw [matched, filtered.eq_def, c.group?_eq]
  cases about : PredicateItem.about p.identifier none c.predicates with
  | nil =>
      refine named.congr fun n => ?_
      simp only [Command.Selects, Command.Demands, about, and_true]
  | cons r rest =>
      refine (named.trans (PredicateGroup.filter_keeps named.nodup _)).congr fun n => ?_
      simp only [Command.Selects, Command.Demands, about]

end Session

end WordGraph
