import WordGraph.Proofs.Query.Acceptance
import WordGraph.Proofs.Query.Grouping
import WordGraph.Proofs.Query.Splitting

/-!
What sorting makes of the predicates of a statement. A word that joins two predicates stands between
predicates of one pattern, so the first predicate of a name is never joined to one before it, and the
groups lose no such word.
-/

namespace WordGraph

/-- The predicates among some items, each with the combinator that stands directly before it. -/
def PredicateItem.joined : Option Combinator → List PredicateItem → List (Option Combinator × Predicate)
  | _, [] => []
  | _, .combinator c :: items => joined (some c) items
  | before, .predicate p :: items => (before, p) :: joined none items

theorem PredicateItem.about_eq (name : String) (before : Option Combinator)
    (items : List PredicateItem) :
    about name before items = (joined before items).filter (·.2.identifier = name) := by
  fun_induction joined before items with
  | case1 before => rfl
  | case2 before c items ih => exact ih
  | case3 before p items ih =>
      rw [about, ih]
      by_cases same : p.identifier = name
      · rw [if_pos same, List.filter_cons_of_pos (by simpa using same)]
      · rw [if_neg same, List.filter_cons_of_neg (by simpa using same)]

namespace PredicateGroup

/-- Groups are opened in the order in which their names first come. -/
theorem identifiers_collect {groups : List PredicateGroup}
    (distinct : (groups.map identifier).Nodup) (before : Option Combinator)
    (items : List PredicateItem) :
    (collect groups before items).map identifier =
      (groups.map identifier ++
        (PredicateItem.joined before items).map (·.2.identifier)).eraseDups := by
  fun_induction collect groups before items with
  | case1 groups before =>
      rw [PredicateItem.joined, List.map_nil, List.append_nil, Distinct.eraseDups_of_nodup distinct]
  | case2 groups before c items ih => exact ih distinct
  | case3 groups before p items ih =>
      have placed := identifiers_place groups (before.getD .and) p
      rw [PredicateItem.joined, List.map_cons]
      by_cases known : p.identifier ∈ groups.map identifier
      · rw [if_pos known] at placed
        rw [ih (placed ▸ distinct), placed, Distinct.eraseDups_append_cons_of_mem known]
      · rw [if_neg known] at placed
        have more : (groups.map identifier ++ [p.identifier]).Nodup :=
          List.nodup_append.2 ⟨distinct, List.nodup_singleton _, fun x hx y hy same =>
            known (List.mem_singleton.1 hy ▸ same ▸ hx)⟩
        rw [ih (placed ▸ more), placed, List.append_assoc, List.singleton_append]

end PredicateGroup

/-- The groups about node patterns come first, in the order of these, and then the others in the order
in which they were opened. -/
theorem Command.identifiers_groups (c : Command) :
    c.groups.map PredicateGroup.identifier =
      ((c.nodePatterns.map Pattern.identifier).eraseDups.filter
        (· ∈ (PredicateItem.joined none c.predicates).map (·.2.identifier))) ++
      ((PredicateItem.joined none c.predicates).map (·.2.identifier)).eraseDups.filter
        (· ∉ c.nodePatterns.map Pattern.identifier) := by
  have opened := @PredicateGroup.identifiers_collect [] List.nodup_nil none c.predicates
  rw [List.map_nil, List.nil_append] at opened
  rw [groups]
  generalize PredicateGroup.collect [] none c.predicates = collected at opened ⊢
  have mentioned (name : String) :
      name ∈ collected.map PredicateGroup.identifier ↔
        name ∈ (PredicateItem.joined none c.predicates).map (·.2.identifier) := by
    rw [opened, List.mem_eraseDups]
  have nodes (names : List String) :
      (names.filterMap fun name => collected.find? (·.identifier = name)).map
        PredicateGroup.identifier =
          names.filter (· ∈ (PredicateItem.joined none c.predicates).map (·.2.identifier)) := by
    induction names with
    | nil => rfl
    | cons name names ih =>
        cases found : collected.find? (·.identifier = name) with
        | none =>
            have absent : name ∉ collected.map PredicateGroup.identifier := by
              intro listed
              obtain ⟨g, hg, same⟩ := List.mem_map.1 listed
              exact List.find?_eq_none.1 found g hg (decide_eq_true same)
            rw [List.filterMap_cons, found, List.filter_cons_of_neg]
            · exact ih
            · rw [decide_eq_true_eq, ← mentioned]
              exact absent
        | some g =>
            have named := PredicateGroup.identifier_of_find? found
            have listed := List.mem_map_of_mem (f := PredicateGroup.identifier)
              (List.mem_of_find?_eq_some found)
            rw [named] at listed
            rw [List.filterMap_cons, found, List.map_cons, named, ih, List.filter_cons_of_pos]
            rw [decide_eq_true_eq, ← mentioned]
            exact listed
  rw [List.map_append, nodes, ← opened, List.filter_map]
  congr 2
  refine List.filter_congr fun g _ => ?_
  simp only [Function.comp_apply, List.mem_eraseDups]

namespace Grammar

section Writing

def Clause.predicate (name : String) (c : Clause) : Predicate :=
  ⟨c.key, c.comparison, c.threshold, name⟩

/-- The predicates of a part of a pattern in the order of its words, each with the word directly before
it, if that word joins it to another predicate. -/
def Item.written (name : String) : Item → List (Option String × Predicate)
  | .pair _ _ => []
  | .clauses first rest =>
      (none, first.predicate name) :: rest.map fun r => (some r.1, r.2.predicate name)

def PatternTree.written (p : PatternTree) : List (Option String × Predicate) :=
  p.items.flatMap (Item.written p.name)

def CommandTree.written (t : CommandTree) : List (Option String × Predicate) :=
  t.patterns.flatMap PatternTree.written

/-- A predicate with what the word before it means. -/
def meant (r : Option String × Predicate) : Option Combinator × Predicate :=
  (r.1.bind Combinator.ofWord?, r.2)

/-- The names of all that is written, as often as predicates are about them. -/
def CommandTree.mentioned (t : CommandTree) : List String := t.written.map (·.2.identifier)

def CommandTree.nodeNames (t : CommandTree) : List String :=
  (t.patterns.filter (·.role = .node)).map PatternTree.name

/-- What is written about a name, with its places among all that is written. -/
def CommandTree.about (t : CommandTree) (name : String) : List ((Option String × Predicate) × Nat) :=
  t.written.zipIdx.filter (·.1.2.identifier = name)

end Writing

/-- Says of groups that they sort what the words of a command say: a group for every name, the names of
node patterns first; in each group what is written about its name, in order; and each word that joins
two predicates in one place of one group. -/
structure CommandTree.Sorts (t : CommandTree) (groups : List PredicateGroup) : Prop where
  names_eq : groups.map PredicateGroup.identifier =
    t.nodeNames.eraseDups.filter (· ∈ t.mentioned) ++ t.mentioned.eraseDups.filter (· ∉ t.nodeNames)
  distinct : (groups.map PredicateGroup.identifier).Nodup
  group : ∀ g ∈ groups, ∃ more,
    t.written.filter (·.2.identifier = g.identifier) = (none, g.first) :: more ∧
      g.rest = more.map fun r => ((r.1.bind Combinator.ofWord?).getD .and, r.2)
  joined : ∀ place w p, t.written[place]? = some (some w, p) →
    ∃ combinator, Combinator.ofWord? w = some combinator ∧
      ∃! e : PredicateGroup × Nat, e.1 ∈ groups ∧
        (t.about e.1.identifier)[e.2 + 1]? = some ((some w, p), place) ∧
        e.1.rest[e.2]? = some (combinator, p)

section Reading

theorem joined_rest {name : String} {rest : List (String × Clause)}
    (valid : ∀ r ∈ rest, (Combinator.ofWord? r.1).isSome = true) (more : List PredicateItem) :
    PredicateItem.joined none ((rest.flatMap fun r => [joint r.1, r.2.meaning name]) ++ more) =
      ((rest.map fun r => (some r.1, r.2.predicate name)).map meant) ++
        PredicateItem.joined none more := by
  induction rest with
  | nil => rfl
  | cons r rest ih =>
      have others := ih fun r hr => valid r (List.mem_cons_of_mem _ hr)
      obtain ⟨combinator, found⟩ := Option.isSome_iff_exists.1 (valid r (List.mem_cons_self ..))
      have same : joint r.1 = .combinator combinator := by rw [joint, found, Option.getD_some]
      rw [List.flatMap_cons, same, List.map_cons, List.map_cons, meant, Option.bind_some, found]
      exact congrArg (List.cons _) others

theorem joined_items {name : String} {role : Role} {items : List Item}
    (valid : ∀ i ∈ items, i.Valid role) (more : List PredicateItem) :
    PredicateItem.joined none (items.flatMap (Item.predicates name) ++ more) =
      (items.flatMap (Item.written name)).map meant ++ PredicateItem.joined none more := by
  induction items with
  | nil => rfl
  | cons i items ih =>
      have others := ih fun i hi => valid i (List.mem_cons_of_mem _ hi)
      have here := valid i (List.mem_cons_self ..)
      rw [List.flatMap_cons, List.flatMap_cons, List.map_append, List.append_assoc, List.append_assoc,
        ← others]
      cases i with
      | pair key value => rfl
      | clauses first rest => exact congrArg (List.cons _) (joined_rest here _)

/-- The items of a command say what its words say. -/
theorem joined_predicates {t : CommandTree} (valid : t.Valid) :
    PredicateItem.joined none (t.patterns.flatMap PatternTree.predicates) = t.written.map meant := by
  have each (ps : List PatternTree) (valid : ∀ p ∈ ps, p.Valid) :
      PredicateItem.joined none (ps.flatMap PatternTree.predicates) =
        (ps.flatMap PatternTree.written).map meant := by
    induction ps with
    | nil => rfl
    | cons p ps ih =>
        have others := ih fun q hq => valid q (List.mem_cons_of_mem _ hq)
        rw [List.flatMap_cons, List.flatMap_cons, List.map_append, PatternTree.predicates,
          joined_items (valid p (List.mem_cons_self ..)), others]
        rfl
  exact each t.patterns valid

/-- A word stands before a predicate only if it means a combinator. -/
theorem exists_combinator {t : CommandTree} (valid : t.Valid) {w : String} {q : Predicate}
    (mem : (some w, q) ∈ t.written) : ∃ combinator, Combinator.ofWord? w = some combinator := by
  obtain ⟨p, hp, mem⟩ := List.mem_flatMap.1 mem
  obtain ⟨i, hi, mem⟩ := List.mem_flatMap.1 mem
  have here : i.Valid p.role := valid p hp i hi
  cases i with
  | pair key value => cases mem
  | clauses first rest =>
      cases List.mem_cons.1 mem with
      | inl same => cases same
      | inr later =>
          obtain ⟨r, hr, same⟩ := List.mem_map.1 later
          cases same
          exact Option.isSome_iff_exists.1 (here r hr)

end Reading

section Heads

/-- Says that what is written first about any name is not joined to anything before it. -/
def Headed (row : List (Option String × Predicate)) : Prop :=
  ∀ name r more, row.filter (·.2.identifier = name) = r :: more → r.1 = none

theorem Headed.append {row more : List (Option String × Predicate)} (h : Headed row)
    (h' : Headed more) : Headed (row ++ more) := by
  intro name r rest filtered
  rw [List.filter_append] at filtered
  cases front : row.filter (·.2.identifier = name) with
  | nil =>
      rw [front] at filtered
      exact h' name r rest filtered
  | cons first others =>
      rw [front] at filtered
      cases filtered
      exact h name r others front

theorem headed_flatMap {α : Type} {f : α → List (Option String × Predicate)} (xs : List α)
    (each : ∀ x, Headed (f x)) : Headed (xs.flatMap f) := by
  induction xs with
  | nil => exact nofun
  | cons x xs ih => exact (each x).append ih

/-- Predicates that words join are about one name, which is that of their pattern. -/
theorem Item.headed_written (name : String) (i : Item) : Headed (i.written name) := by
  cases i with
  | pair key value => exact nofun
  | clauses first rest =>
      intro other r more filtered
      have about : ∀ e ∈ (Item.clauses first rest).written name, e.2.identifier = name := by
        intro e he
        cases List.mem_cons.1 he with
        | inl same => exact same ▸ rfl
        | inr later =>
            obtain ⟨_, _, rfl⟩ := List.mem_map.1 later
            rfl
      obtain ⟨listed, named⟩ := List.mem_filter.1 (filtered ▸ List.mem_cons_self .. :
        r ∈ ((Item.clauses first rest).written name).filter (·.2.identifier = other))
      have same : name = other := (about r listed).symm.trans (of_decide_eq_true named)
      rw [List.filter_eq_self.2 fun e he => decide_eq_true ((about e he).trans same)] at filtered
      cases filtered
      rfl

theorem CommandTree.headed_written (t : CommandTree) : Headed t.written :=
  headed_flatMap t.patterns fun p => headed_flatMap p.items (Item.headed_written p.name)

end Heads
section Sorting

variable {t : CommandTree} {c : Command}

theorem CommandTree.map_fst_about (t : CommandTree) (name : String) :
    (t.about name).map Prod.fst = t.written.filter (·.2.identifier = name) := by
  have places := List.filter_map (f := Prod.fst) (l := t.written.zipIdx)
    (p := fun r => decide (r.2.identifier = name))
  rw [List.zipIdx_map_fst] at places
  exact places.symm

theorem CommandTree.nodup_about (t : CommandTree) (name : String) : (t.about name).Nodup := by
  have places : (t.written.zipIdx.map Prod.snd).Nodup := by
    rw [List.zipIdx_map_snd]
    exact List.nodup_range'
  exact (places.of_map Prod.snd).filter _

theorem CommandTree.mem_about_iff (t : CommandTree) (name : String)
    (e : (Option String × Predicate) × Nat) :
    e ∈ t.about name ↔ t.written[e.2]? = some e.1 ∧ e.1.2.identifier = name := by
  rw [about, List.mem_filter, List.mem_zipIdx_iff_getElem?, decide_eq_true_eq]

theorem CommandTree.Yields.nodeNames_eq (h : t.Yields c) :
    c.nodePatterns.map Pattern.identifier = t.nodeNames := by
  rw [Command.nodePatterns, nodeNames]
  have patterns := h.patterns
  generalize c.patterns = ps at patterns
  generalize t.patterns = trees at patterns
  induction patterns with
  | nil => rfl
  | @cons tree p trees ps yields _ ih =>
      by_cases node : tree.role = .node
      · rw [List.filter_cons_of_pos (by simpa using yields.role_eq.trans node),
          List.filter_cons_of_pos (by simpa using node), List.map_cons, List.map_cons,
          yields.identifier_eq, ih]
      · have other : p.role ≠ .node := fun same => node (yields.role_eq.symm.trans same)
        rw [List.filter_cons_of_neg (by simpa using other), List.filter_cons_of_neg (by simpa using node),
          ih]

section Yielded

variable (valid : t.Valid) (yields : t.Yields c)
include valid yields

theorem CommandTree.Yields.joined_eq :
    PredicateItem.joined none c.predicates = t.written.map meant := by
  rw [yields.predicates_eq, joined_predicates valid]

theorem CommandTree.Yields.identifiers_eq :
    c.groups.map PredicateGroup.identifier =
      t.nodeNames.eraseDups.filter (· ∈ t.mentioned) ++
        t.mentioned.eraseDups.filter (· ∉ t.nodeNames) := by
  rw [c.identifiers_groups, yields.nodeNames_eq, yields.joined_eq valid, List.map_map]
  rfl

theorem CommandTree.Yields.exists_group {r : Option String × Predicate} (mem : r ∈ t.written) :
    ∃ g ∈ c.groups, g.identifier = r.2.identifier := by
  have mentioned : r.2.identifier ∈ t.mentioned := List.mem_map_of_mem mem
  have listed : r.2.identifier ∈ c.groups.map PredicateGroup.identifier := by
    rw [yields.identifiers_eq valid, List.mem_append, List.mem_filter, List.mem_filter,
      List.mem_eraseDups, List.mem_eraseDups, decide_eq_true_eq, decide_eq_true_eq]
    by_cases node : r.2.identifier ∈ t.nodeNames
    · exact .inl ⟨node, mentioned⟩
    · exact .inr ⟨mentioned, node⟩
  exact List.mem_map.1 listed

/-- A group has what is written about its name, and the first of it is joined to nothing. -/
theorem CommandTree.Yields.group_eq {g : PredicateGroup} (listed : g ∈ c.groups) :
    ∃ more, t.written.filter (·.2.identifier = g.identifier) = (none, g.first) :: more ∧
      g.rest = more.map fun r => ((r.1.bind Combinator.ofWord?).getD .and, r.2) := by
  have found := Command.group?_of_mem listed
  rw [c.group?_eq, PredicateItem.about_eq, yields.joined_eq valid, List.filter_map] at found
  change PredicateGroup.ofPredicates?
    ((t.written.filter (·.2.identifier = g.identifier)).map meant) = some g at found
  cases row : t.written.filter (·.2.identifier = g.identifier) with
  | nil =>
      rw [row] at found
      cases found
  | cons r more =>
      have head := t.headed_written _ r more row
      rw [row] at found
      obtain ⟨before, first⟩ := r
      cases head
      have same := Option.some.inj found
      refine ⟨more, ?_, ?_⟩
      · rw [← same]
      · rw [← same, List.map_map]
        rfl

theorem CommandTree.Yields.sorts : t.Sorts c.groups where
  names_eq := yields.identifiers_eq valid
  distinct := c.nodup_groups
  group g listed := yields.group_eq valid listed
  joined place w p here := by
    obtain ⟨combinator, found⟩ := exists_combinator valid (List.mem_of_getElem? here)
    obtain ⟨g, listed, named⟩ := yields.exists_group valid (List.mem_of_getElem? here)
    obtain ⟨more, row, rest⟩ := yields.group_eq valid listed
    have entry := (t.mem_about_iff g.identifier ((some w, p), place)).2 ⟨here, named.symm⟩
    obtain ⟨k, at_k⟩ := List.mem_iff_getElem?.1 entry
    have in_row : ((none, g.first) :: more)[k]? = some (some w, p) := by
      rw [← row, ← t.map_fst_about, List.getElem?_map, at_k]
      rfl
    -- The first predicate of a group is not joined to anything, so this is a later one.
    cases k with
    | zero => cases in_row
    | succ k =>
        have in_rest : g.rest[k]? = some (combinator, p) := by
          rw [rest, List.getElem?_map, ← List.getElem?_cons_succ, in_row, Option.map_some,
            Option.bind_some, found, Option.getD_some]
        refine ⟨combinator, found, (g, k), ⟨listed, at_k, in_rest⟩, fun ⟨g', k'⟩ ⟨listed', at_k', _⟩ => ?_⟩
        have named' := ((t.mem_about_iff ..).1 (List.mem_of_getElem? at_k')).2
        have same : g' = g := List.inj_on_of_nodup_map c.nodup_groups listed' listed
          (named'.symm.trans named.symm)
        subst same
        have inside := (List.getElem?_eq_some_iff.1 at_k').1
        have index := (List.getElem?_inj inside (t.nodup_about _)).1 (at_k'.trans at_k.symm)
        exact congrArg (Prod.mk g') (Nat.succ.inj index)

end Yielded
end Sorting
end Grammar

namespace Statement

open Grammar

/-- Whatever statement of an input is accepted, the groups of its commands sort what its words say. -/
theorem parse_sorts {ws : List String} {i : Nat} {cs : List Command}
    (accepted : (parse ws)[i]? = some (.ok cs)) :
    ∃ before body after trees, Stands ws before body after ∧ before.count ";" = i ∧
      Derives trees body ∧ List.Forall₂ (fun t c => t.Yields c ∧ t.Sorts c.groups) trees cs := by
  obtain ⟨before, body, after, stands, count⟩ | unfinished := stands_of_parse accepted
  · have read := stands.parse_eq
    rw [count, accepted] at read
    obtain ⟨trees, derived, rfl⟩ := (read_concat_iff stands.plain _ cs).1 (Option.some.inj read).symm
    have yields := (derived.yields_iff _).2 rfl
    refine ⟨before, body, after, trees, stands, count, derived, ?_⟩
    refine List.forall₂_iff_get.2 ⟨yields.length_eq, fun place bound bound' => ?_⟩
    have each := (List.forall₂_iff_get.1 yields).2 place bound bound'
    exact ⟨each, each.sorts (derived.wellFormed.valid _ (List.get_mem ..))⟩
  · cases unfinished

/-- Behind another statement, a MATCH that comes back to a node pattern and says something of an edge
pattern. -/
theorem parse_sorts_returning :
    ∃ (c : Command) (t : CommandTree), (parse (splitWords
        "SHOW ; MATCH n: b x>1 and y<2 e: r w>3 n: a x<9 e: s n: b y>7 OR z=1 ;"))[1]? =
          some (.ok [c]) ∧ t.Yields c ∧ t.Sorts c.groups ∧
      c.groups.map (fun g => (g.identifier, g.text)) =
        [("b", "x>1 AND y<2 AND y>7 OR z=1"), ("a", "x<9"), ("r", "w>3")] := by
  let c : Command := { keyword := .matching
                       patterns := [⟨.node, "b", ∅⟩, ⟨.edge, "r", ∅⟩, ⟨.node, "a", ∅⟩,
                         ⟨.edge, "s", ∅⟩, ⟨.node, "b", ∅⟩]
                       predicates := [.predicate ⟨"x", .greater, "1", "b"⟩, .combinator .and,
                         .predicate ⟨"y", .less, "2", "b"⟩, .predicate ⟨"w", .greater, "3", "r"⟩,
                         .predicate ⟨"x", .less, "9", "a"⟩, .predicate ⟨"y", .greater, "7", "b"⟩,
                         .combinator .or, .predicate ⟨"z", .equal, "1", "b"⟩] }
  have accepted : (parse (splitWords
      "SHOW ; MATCH n: b x>1 and y<2 e: r w>3 n: a x<9 e: s n: b y>7 OR z=1 ;"))[1]? =
        some (.ok [c]) := by decide +kernel
  obtain ⟨_, _, _, trees, _, _, _, sorted⟩ := parse_sorts accepted
  cases sorted with
  | cons both rest =>
      cases rest
      exact ⟨c, _, accepted, both.1, both.2, by decide +kernel⟩

end Statement
end WordGraph
