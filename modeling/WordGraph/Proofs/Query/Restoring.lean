import WordGraph.Proofs.Query.Repetition

/-!
Changes that are taken back. If the entities that a change picks have none of its keys, the pairs that
it puts stand behind their own and cover nothing, so no filter and no predicate that held of an entity
fails afterwards; the same change with the other truth value finds the same entities and takes away
what the first one put.
-/

namespace WordGraph

namespace Attributes

variable {a b update filter : Attributes}

/-- Says that attributes have none of the keys of an update. -/
def Lacks (a update : Attributes) : Prop := ∀ key ∈ update.table.keys, a.get? key = none

/-- Says that attributes have all that others have, with the same values. -/
def Extends (b a : Attributes) : Prop := ∀ key value, a.get? key = some value → b.get? key = some value

theorem toList_merge (new : a.Lacks update) : (a.merge update).toList = a.toList ++ update.toList := by
  apply OrderedMap.entries_foldl_insert_new
  rw [List.map_append]
  refine List.nodup_append.2 ⟨a.table.nodup_keys, update.table.nodup_keys, fun x hx y hy same => ?_⟩
  exact (OrderedMap.find?_eq_none_iff ..).1 (new x (same ▸ hy)) hx

theorem merge_extends (new : a.Lacks update) : (a.merge update).Extends a := by
  intro key value found
  refine (OrderedMap.find?_eq_some_iff ..).2 ?_
  have listed : (a.merge update).table.entries = a.table.entries ++ update.table.entries :=
    toList_merge new
  rw [listed]
  exact List.mem_append_left _ ((OrderedMap.find?_eq_some_iff ..).1 found)

theorem contains_iff (a : Attributes) (key : String) : a.contains key = true ↔ key ∈ a.table.keys :=
  OrderedMap.contains_iff_mem_keys ..

/-- The pairs of an update with new keys can be taken away again. -/
theorem without_merge (new : a.Lacks update) : (a.merge update).without update = a := by
  apply ext_table
  apply OrderedMap.ext_entries
  have listed : (a.merge update).table.entries = a.table.entries ++ update.table.entries :=
    toList_merge new
  have kept : a.table.entries.filter (fun e => !update.contains e.1) = a.table.entries := by
    refine List.filter_eq_self.2 fun e he => ?_
    rw [Bool.not_eq_true', Bool.eq_false_iff, ne_eq, contains_iff]
    intro listed
    exact (OrderedMap.find?_eq_none_iff ..).1 (new e.1 listed) (List.mem_map_of_mem he)
  have gone : update.table.entries.filter (fun e => !update.contains e.1) = [] := by
    refine List.filter_eq_nil_iff.2 fun e he => ?_
    rw [Bool.not_eq_true', Bool.not_eq_false, contains_iff]
    exact List.mem_map_of_mem he
  change (a.merge update).table.entries.filter (fun e => !update.contains e.1) = _
  rw [listed, List.filter_append, kept, gone, List.append_nil]

theorem Extends.includes (more : b.Extends a) (h : a.includes filter = true) :
    b.includes filter = true := by
  rw [Attributes.includes, List.all_eq_true] at h ⊢
  intro e he
  have own := h e he
  rw [decide_eq_true_eq] at own ⊢
  exact more _ _ own

end Attributes

/-- A combinator carries over what both of its sides carry over: it turns neither of them round. -/
theorem Combinator.Joins.imp {c : Combinator} {P Q P' Q' : Prop} (h : c.Joins P Q) (held : P → P')
    (next : Q → Q') : c.Joins P' Q' := by
  cases c with
  | and => exact And.imp held next h
  | or => exact Or.imp held next h

section Growing

variable {n m : Node} (more : m.attributes.Extends n.attributes)
include more

theorem Predicate.Holds.extends {p : Predicate} (h : p.Holds n) : p.Holds m := by
  obtain ⟨limit, value, text, threshold, stored, numeric, compares⟩ := h
  exact ⟨limit, value, text, threshold, more _ _ stored, numeric, compares⟩

theorem Predicate.HoldsWith.extends {first : Predicate} {rest : List (Combinator × Predicate)}
    (h : first.HoldsWith rest n) : first.HoldsWith rest m := by
  have joined (rest : List (Combinator × Predicate)) (P Q : Prop) (grows : P → Q) :
      rest.foldl (fun held r => r.1.Joins held (r.2.Holds n)) P →
        rest.foldl (fun held r => r.1.Joins held (r.2.Holds m)) Q := by
    induction rest generalizing P Q with
    | nil => exact grows
    | cons r rest ih =>
        apply ih
        intro held
        exact held.imp grows (Holds.extends more)
  exact joined rest _ _ (Holds.extends more) h

/-- A pattern still selects a node that has got more attributes. -/
theorem Command.Selects.extends {c : Command} {p : Pattern} (h : c.Selects p n) : c.Selects p m := by
  refine ⟨more.includes h.1, ?_⟩
  have demanded := h.2
  rw [Command.Demands] at demanded ⊢
  split at demanded
  · trivial
  · exact demanded.extends more

end Growing

/-- A node or an edge. -/
inductive Entity where
  | node (n : Node)
  | edge (e : Edge)

namespace Entity

def attributes : Entity → Attributes
  | node n => n.attributes
  | edge e => e.attributes

/-- Says that two are the same node or the same edge, whatever their attributes. -/
def Same : Entity → Entity → Prop
  | node n, node m => n.id = m.id
  | edge e, edge f => e.endpoints = f.endpoints
  | _, _ => False

/-- One kind of entities: a key names each of them, also when its attributes are changed. -/
structure Kind {κ α : Type} (key : α → κ) where
  entity : α → Entity
  edit : (Attributes → Attributes) → α → α
  key_edit : ∀ f a, key (edit f a) = key a
  attributes_edit : ∀ f a, (entity (edit f a)).attributes = f (entity a).attributes
  edit_back : ∀ f g a, g (f (entity a).attributes) = (entity a).attributes → edit g (edit f a) = a
  same_iff : ∀ a b, (entity a).Same (entity b) ↔ key a = key b

def nodes : Kind Node.id where
  entity := node
  edit := Node.edit
  key_edit := Node.id_edit
  attributes_edit _ _ := rfl
  edit_back _ _ n back := congrArg (Node.mk n.id) back
  same_iff _ _ := Iff.rfl

def edges : Kind Edge.endpoints where
  entity := edge
  edit := Edge.edit
  key_edit := Edge.endpoints_edit
  attributes_edit _ _ := rfl
  edit_back _ _ e back := congrArg (Edge.mk e.source e.target) back
  same_iff _ _ := Iff.rfl

end Entity

/-- The nodes and then the edges, in the order of their tables. -/
def Graph.entities (g : Graph) : List Entity := g.nodes.map .node ++ g.edges.map .edge

/-- What a change says that it has changed. -/
def Outcome.changed : Outcome → List Entity
  | .modifiedNodes ns => ns.map .node
  | .modifiedEdges es => es.map .edge
  | _ => []

namespace Command

/-- The attributes that a change puts or takes away. -/
def update (c : Command) : Attributes := (c.patterns[1]?.map Pattern.attributes).getD ∅

/-- Says of an entity that a change is to be made to it. -/
def Picks (c : Command) : Entity → Prop
  | .node n => c.keyword = .modifyNode ∧ ∃ p, c.patterns[0]? = some p ∧ c.Selects p n
  | .edge e => c.keyword = .modifyEdge ∧
      ∃ p, c.patterns[0]? = some p ∧ e.attributes.includes p.attributes = true

/-- Says that two commands are the same up to the truth value, which a boolean pattern carries. -/
structure Counterpart (c d : Command) : Prop where
  keyword_eq : d.keyword = c.keyword
  predicates_eq : d.predicates = c.predicates
  patterns : List.Forall₂ (fun p q => q.role = p.role ∧ q.identifier = p.identifier ∧
    (p.role ≠ .bool → q = p)) c.patterns d.patterns

end Command

/-- What a change makes of an entity: the pairs of the update stand behind those that it had, if the
command picks it, and it is picked afterwards if it was before. -/
structure Entity.Gains (c : Command) (x y : Entity) : Prop where
  same : x.Same y
  picked : c.Picks x → y.attributes.toList = x.attributes.toList ++ c.update.toList
  untouched : ¬c.Picks x → y = x
  again : c.Picks y ↔ c.Picks x

/-- Says of an answer that it lists the entities of a graph that a command picks, and nothing twice. -/
structure Outcome.Lists (o : Outcome) (c : Command) (g : Graph) : Prop where
  nodup : o.changed.Nodup
  mem_iff : ∀ x, x ∈ o.changed ↔ x ∈ g.entities ∧ c.Picks x

section Picking

variable {c : Command} {x y : Entity}

theorem Command.Picks.extends (picked : c.Picks x) (same : x.Same y)
    (more : y.attributes.Extends x.attributes) : c.Picks y := by
  match x, y with
  | .node n, .node m =>
      obtain ⟨keyword, p, first, selected⟩ := picked
      exact ⟨keyword, p, first, selected.extends more⟩
  | .edge e, .edge f =>
      obtain ⟨keyword, p, first, passes⟩ := picked
      exact ⟨keyword, p, first, more.includes passes⟩
  | .node _, .edge _ | .edge _, .node _ => exact same.elim

theorem Entity.same_self (x : Entity) : x.Same x := by
  cases x <;> exact rfl

theorem Entity.gains_of_picked (picked : c.Picks x) (new : x.attributes.Lacks c.update)
    (same : x.Same y) (made : y.attributes = x.attributes.merge c.update) : x.Gains c y where
  same := same
  picked _ := made ▸ Attributes.toList_merge new
  untouched other := absurd picked other
  again := ⟨fun _ => picked, fun _ => picked.extends same (made ▸ Attributes.merge_extends new)⟩

theorem Entity.gains_of_not (other : ¬c.Picks x) : x.Gains c x where
  same := x.same_self
  picked picked := absurd picked other
  untouched _ := rfl
  again := Iff.rfl

end Picking

/-- Says that keys are those of the values for which `P` holds, each of them once. -/
structure Points {κ α : Type} {key : α → κ} (t : Catalog key) (P : α → Prop) (ks : List κ) :
    Prop where
  nodup : ks.Nodup
  mem_iff : ∀ k, k ∈ ks ↔ ∃ a ∈ t.values, key a = k ∧ P a

namespace Points

variable {κ α : Type} {key : α → κ} {t : Catalog key} {P : α → Prop} {ks js : List κ}

theorem mem_iff_of_value (h : Points t P ks) {a : α} (ha : a ∈ t.values) : key a ∈ ks ↔ P a := by
  rw [h.mem_iff]
  constructor
  · intro ⟨b, stored, same, holds⟩
    have keys : (t.values.map key).Nodup := t.map_key_values ▸ t.keys_nodup
    exact List.inj_on_of_nodup_map keys stored ha same ▸ holds
  · intro holds
    exact ⟨a, ha, rfl, holds⟩

theorem congr (h : Points t P ks) (distinct : js.Nodup) (same : ∀ k, k ∈ js ↔ k ∈ ks) :
    Points t P js where
  nodup := distinct
  mem_iff k := (same k).trans (h.mem_iff k)

section Changing

variable [DecidableEq κ] {c : Command} {kind : Entity.Kind key}
  (h : Points t (fun a => c.Picks (kind.entity a)) ks)
include h

/-- An answer that gives what is found under the keys lists what is picked, if that is in the table. -/
theorem lists {g : Graph} {o : Outcome}
    (changed : o.changed = ks.filterMap fun k => (t.find? k).map kind.entity)
    (tabled : ∀ x, c.Picks x → (x ∈ g.entities ↔ x ∈ t.values.map kind.entity)) :
    o.Lists c g where
  nodup := by
    rw [changed]
    refine h.nodup.filterMap fun k j x one other => ?_
    obtain ⟨a, found, rfl⟩ := Option.map_eq_some_iff.1 one
    obtain ⟨b, found', made⟩ := Option.map_eq_some_iff.1 other
    have same := (kind.same_iff b a).1 (made ▸ Entity.same_self _)
    rw [← ((t.find?_eq_some_iff_value ..).1 found).2, ← ((t.find?_eq_some_iff_value ..).1 found').2,
      same]
  mem_iff x := by
    rw [changed, and_congr_left_iff.2 (tabled x)]
    simp only [List.mem_filterMap, Option.map_eq_some_iff, Catalog.find?_eq_some_iff_value,
      List.mem_map]
    constructor
    · rintro ⟨k, pointed, a, ⟨stored, rfl⟩, rfl⟩
      exact ⟨⟨a, stored, rfl⟩, (h.mem_iff_of_value stored).1 pointed⟩
    · rintro ⟨⟨a, stored, rfl⟩, picked⟩
      exact ⟨key a, (h.mem_iff_of_value stored).2 picked, a, ⟨stored, rfl⟩, rfl⟩

variable (new : ∀ a ∈ t.values, c.Picks (kind.entity a) → (kind.entity a).attributes.Lacks c.update)
include new

theorem gains_value {a : α} (ha : a ∈ t.values) :
    (kind.entity a).Gains c
      (kind.entity (if key a ∈ ks then kind.edit (·.merge c.update) a else a)) := by
  by_cases pointed : key a ∈ ks
  · have picked := (h.mem_iff_of_value ha).1 pointed
    rw [if_pos pointed]
    exact Entity.gains_of_picked picked (new a ha picked)
      ((kind.same_iff ..).2 (kind.key_edit _ a).symm) (kind.attributes_edit _ a)
  · rw [if_neg pointed]
    exact Entity.gains_of_not (mt (h.mem_iff_of_value ha).2 pointed)

/-- Every value gains what the command adds to it, in the place that it had. -/
theorem gains :
    List.Forall₂ (Entity.Gains c) (t.values.map kind.entity)
      ((t.modifyAll (kind.edit (·.merge c.update)) (kind.key_edit _) ks).values.map kind.entity) := by
  rw [t.values_modifyAll h.nodup, List.map_map, List.forall₂_map_left_iff,
    List.forall₂_map_right_iff, List.forall₂_same]
  exact fun a ha => h.gains_value new ha

/-- What is picked afterwards has the keys of what was picked before. -/
theorem again (h' : Points (t.modifyAll (kind.edit (·.merge c.update)) (kind.key_edit _) ks)
    (fun a => c.Picks (kind.entity a)) js) (k : κ) : k ∈ js ↔ k ∈ ks := by
  rw [h'.mem_iff, t.values_modifyAll h.nodup]
  constructor
  · intro ⟨b, listed, named, picked⟩
    obtain ⟨a, ha, rfl⟩ := List.mem_map.1 listed
    have before := (h.gains_value new ha).again.1 picked
    have same := (kind.same_iff ..).1 (h.gains_value new ha).same
    exact named ▸ same ▸ (h.mem_iff_of_value ha).2 before
  · intro pointed
    obtain ⟨a, stored, rfl, picked⟩ := (h.mem_iff k).1 pointed
    have gained := h.gains_value new stored
    exact ⟨_, List.mem_map_of_mem stored, ((kind.same_iff ..).1 gained.same).symm,
      gained.again.2 picked⟩

theorem restored (h' : Points (t.modifyAll (kind.edit (·.merge c.update)) (kind.key_edit _) ks)
    (fun a => c.Picks (kind.entity a)) js) :
    (t.modifyAll (kind.edit (·.merge c.update)) (kind.key_edit _) ks).modifyAll
      (kind.edit (·.without c.update)) (kind.key_edit _) js = t := by
  refine t.modifyAll_back h.nodup h'.nodup (h.again new h') fun a ha pointed => ?_
  exact kind.edit_back _ _ a (Attributes.without_merge (new a ha ((h.mem_iff_of_value ha).1 pointed)))

end Changing
end Points

namespace Graph

variable (add : Bool) (update : Attributes)

/-- A change that is given no node twice answers with the nodes as they are in the end. -/
theorem nodes_changeNodes (g : Graph) {ids : List NodeId} (distinct : ids.Nodup) :
    (g.changeNodes add update ids).2 = ids.filterMap (g.changeNodes add update ids).1.node? := by
  induction ids generalizing g with
  | nil => rfl
  | cons id rest ih =>
      obtain ⟨new, distinct⟩ := List.nodup_cons.1 distinct
      have kept := node?_changeNodes add update (g.modifyNode id (change add · update)) new
      have others := ih (g.modifyNode id (change add · update)) distinct
      change _ ++ _ = List.filterMap
        ((g.modifyNode id (change add · update)).changeNodes add update rest).1.node? (id :: rest)
      rw [others, List.filterMap_cons, kept]
      cases (g.modifyNode id (change add · update)).node? id <;> rfl

theorem edges_changeEdges (g : Graph) {ends : List Endpoints} (distinct : ends.Nodup) :
    (g.changeEdges add update ends).2 =
      ends.filterMap fun e => (g.changeEdges add update ends).1.edge? e.1 e.2 := by
  induction ends generalizing g with
  | nil => rfl
  | cons e rest ih =>
      obtain ⟨new, distinct⟩ := List.nodup_cons.1 distinct
      have kept := edge?_changeEdges add update (g.modifyEdge e.1 e.2 (change add · update)) new
      have others := ih (g.modifyEdge e.1 e.2 (change add · update)) distinct
      change _ ++ _ = List.filterMap (fun f => ((g.modifyEdge e.1 e.2 (change add · update)).changeEdges
        add update rest).1.edge? f.1 f.2) (e :: rest)
      rw [others, List.filterMap_cons, kept]
      cases (g.modifyEdge e.1 e.2 (change add · update)).edge? e.1 e.2 <;> rfl

end Graph

namespace Command

variable {c d : Command}

theorem Counterpart.pattern (h : c.Counterpart d) {place : Nat} {p : Pattern}
    (here : c.patterns[place]? = some p) :
    ∃ q, d.patterns[place]? = some q ∧ q.role = p.role ∧ q.identifier = p.identifier ∧
      (p.role ≠ .bool → q = p) := by
  obtain ⟨length, each⟩ := List.forall₂_iff_get.1 h.patterns
  obtain ⟨bound, rfl⟩ := List.getElem?_eq_some_iff.1 here
  have bound' : place < d.patterns.length := length ▸ bound
  exact ⟨d.patterns[place], List.getElem?_eq_getElem bound', each place bound bound'⟩

theorem Counterpart.symm (h : c.Counterpart d) : d.Counterpart c where
  keyword_eq := h.keyword_eq.symm
  predicates_eq := h.predicates_eq.symm
  patterns := h.patterns.flip.imp fun _ _ ⟨role, identifier, same⟩ =>
    ⟨role.symm, identifier.symm, fun other => (same (role ▸ other)).symm⟩

theorem Counterpart.roles_eq (h : c.Counterpart d) : d.roles = c.roles := by
  rw [← List.forall₂_eq_eq_eq, roles, roles, List.forall₂_map_left_iff, List.forall₂_map_right_iff]
  exact h.patterns.flip.imp fun _ _ r => r.1

theorem Counterpart.targets (h : c.Counterpart d) {p : Predicate} (targets : c.Targets p) :
    d.Targets p where
  met := by
    obtain ⟨q, mem, named⟩ := targets.met
    obtain ⟨place, here⟩ := List.mem_iff_getElem?.1 mem
    obtain ⟨r, there, _, same, _⟩ := h.pattern here
    exact ⟨r, List.mem_of_getElem? there, same.trans named⟩
  narrowed place q here named := by
    obtain ⟨r, there, role, same, _⟩ := h.symm.pattern here
    have old := targets.narrowed place r there (same.trans named)
    rw [h.keyword_eq, ← role]
    exact old

/-- Says that a command adds attributes to nodes or edges or takes them away. -/
def Changes (c : Command) : Prop := c.keyword = .modifyNode ∨ c.keyword = .modifyEdge

/-- A change passes its check with either truth value. -/
theorem Counterpart.check (h : c.Counterpart d) (changes : c.Changes) (accepted : c.check = .ok ())
    (given : d.flag.isSome = true) : d.check = .ok () := by
  rw [check_eq_ok_iff_targets] at accepted ⊢
  obtain ⟨shaped, all⟩ := accepted
  refine ⟨?_, fun p mem => h.targets (all p ?_)⟩
  · rw [Shaped, h.keyword_eq, h.roles_eq]
    cases changes with
    | inl keyword | inr keyword =>
        simp only [Shaped, keyword] at shaped ⊢
        exact ⟨shaped.1, given⟩
  · rw [mem_written_iff, ← h.predicates_eq]
    exact (d.mem_written_iff p).1 mem

/-- A change has a pattern for what is changed and one for its attributes. -/
theorem patterns_of_changes (changes : c.Changes) (accepted : c.check = .ok ()) :
    ∃ target change, c.patterns[0]? = some target ∧ c.patterns[1]? = some change ∧
      target.role ≠ .bool ∧ change.role ≠ .bool := by
  have shaped := ((check_eq_ok_iff c).1 accepted).1
  have two {role : Role} (roles : c.roles = [role, role, .bool]) (other : role ≠ .bool) :
      ∃ target change, c.patterns[0]? = some target ∧ c.patterns[1]? = some change ∧
        target.role ≠ .bool ∧ change.role ≠ .bool := by
    obtain ⟨target, rest, patterns, first, roles⟩ := List.map_eq_cons_iff.1 roles
    obtain ⟨change, last, rfl, second, _⟩ := List.map_eq_cons_iff.1 roles
    rw [patterns]
    exact ⟨target, change, rfl, rfl, first ▸ other, second ▸ other⟩
  cases changes with
  | inl keyword | inr keyword =>
      simp only [Shaped, keyword] at shaped
      exact two shaped.1 (by decide)

theorem update_eq {change : Pattern} (second : c.patterns[1]? = some change) :
    c.update = change.attributes := by
  rw [update, second]
  rfl

end Command

/-- Entities that a command does not pick are left alone. -/
theorem gains_others {c : Command} {xs : List Entity} (others : ∀ x ∈ xs, ¬c.Picks x) :
    List.Forall₂ (Entity.Gains c) xs xs := by
  rw [List.forall₂_same]
  exact fun x mem => Entity.gains_of_not (others x mem)

namespace Graph

variable {g : Graph} {c : Command}

/-- Says of what a change with `val:1` leaves that every entity has gained what it should and that all
else is as it was. -/
structure Gained (c : Command) (g h : Graph) : Prop where
  entities : List.Forall₂ (Entity.Gains c) g.entities h.entities
  counter_eq : h.counter = g.counter
  adjacency_eq : h.adjacency = g.adjacency

variable (new : ∀ x ∈ g.entities, c.Picks x → x.attributes.Lacks c.update)

section Nodes

variable (keyword : c.keyword = .modifyNode) {ids more : List NodeId}

include keyword in
/-- An answer about nodes lists what is picked, if it was asked for what is picked. -/
theorem lists_changeNodes {h : Graph} {add : Bool} {update : Attributes}
    (changed : (g.changeNodes add update ids).1 = h)
    (points : Points h.nodeTable (fun n => c.Picks (Entity.nodes.entity n)) ids) :
    (Outcome.modifiedNodes (g.changeNodes add update ids).2).Lists c h := by
  refine points.lists ?_ fun x picked => ?_
  · rw [Outcome.changed, nodes_changeNodes _ _ _ points.nodup, List.map_filterMap, changed]
    rfl
  · rw [entities, List.mem_append]
    refine or_iff_left fun other => ?_
    obtain ⟨e, _, rfl⟩ := List.mem_map.1 other
    cases keyword.symm.trans picked.1

section Twice

variable (points : Points g.nodeTable (fun n => c.Picks (Entity.nodes.entity n)) ids)
include new points

omit points in
theorem lacks_of_node {n : Node} (hn : n ∈ g.nodes) (picked : c.Picks (.node n)) :
    n.attributes.Lacks c.update :=
  new _ (List.mem_append_left _ (List.mem_map_of_mem hn)) picked

include keyword in
theorem gained_changeNodes : g.Gained c (g.changeNodes true c.update ids).1 := by
  rw [changeNodes_eq]
  refine ⟨List.rel_append (points.gains fun _ => lacks_of_node new) (gains_others ?_), rfl, rfl⟩
  intro x mem picked
  obtain ⟨e, _, rfl⟩ := List.mem_map.1 mem
  cases keyword.symm.trans picked.1

variable (points' : Points (g.changeNodes true c.update ids).1.nodeTable
  (fun n => c.Picks (Entity.nodes.entity n)) more)
include points'

theorem mem_picked_nodes_again (id : NodeId) : id ∈ more ↔ id ∈ ids := by
  rw [changeNodes_eq] at points'
  exact points.again (fun _ => lacks_of_node new) points' id

theorem changeNodes_back : ((g.changeNodes true c.update ids).1.changeNodes false c.update more).1 = g := by
  rw [changeNodes_eq] at points'
  have table := points.restored (fun _ => lacks_of_node new) points'
  rw [changeNodes_eq, changeNodes_eq]
  exact congrArg (fun t => ({ g with nodeTable := t } : Graph)) table

end Twice
end Nodes

section Edges

variable (keyword : c.keyword = .modifyEdge) {ends more : List Endpoints}

include keyword in
theorem lists_changeEdges {h : Graph} {add : Bool} {update : Attributes}
    (changed : (g.changeEdges add update ends).1 = h)
    (points : Points h.edgeTable (fun e => c.Picks (Entity.edges.entity e)) ends) :
    (Outcome.modifiedEdges (g.changeEdges add update ends).2).Lists c h := by
  refine points.lists ?_ fun x picked => ?_
  · rw [Outcome.changed, edges_changeEdges _ _ _ points.nodup, List.map_filterMap, changed]
    rfl
  · rw [entities, List.mem_append]
    refine or_iff_right fun other => ?_
    obtain ⟨e, _, rfl⟩ := List.mem_map.1 other
    cases keyword.symm.trans picked.1

section Twice

variable (points : Points g.edgeTable (fun e => c.Picks (Entity.edges.entity e)) ends)
include new points

omit points in
theorem lacks_of_edge {e : Edge} (he : e ∈ g.edges) (picked : c.Picks (.edge e)) :
    e.attributes.Lacks c.update :=
  new _ (List.mem_append_right _ (List.mem_map_of_mem he)) picked

include keyword in
theorem gained_changeEdges : g.Gained c (g.changeEdges true c.update ends).1 := by
  rw [changeEdges_eq]
  refine ⟨List.rel_append (gains_others ?_) (points.gains fun _ => lacks_of_edge new), rfl, rfl⟩
  intro x mem picked
  obtain ⟨n, _, rfl⟩ := List.mem_map.1 mem
  cases keyword.symm.trans picked.1

variable (points' : Points (g.changeEdges true c.update ends).1.edgeTable
  (fun e => c.Picks (Entity.edges.entity e)) more)
include points'

theorem mem_picked_edges_again (e : Endpoints) : e ∈ more ↔ e ∈ ends := by
  rw [changeEdges_eq] at points'
  exact points.again (fun _ => lacks_of_edge new) points' e

theorem changeEdges_back :
    ((g.changeEdges true c.update ends).1.changeEdges false c.update more).1 = g := by
  rw [changeEdges_eq] at points'
  have table := points.restored (fun _ => lacks_of_edge new) points'
  rw [changeEdges_eq, changeEdges_eq]
  exact congrArg (fun t => ({ g with edgeTable := t } : Graph)) table

end Twice
end Edges
end Graph

namespace Session

variable {s : Session} {c d : Command} {target : Pattern}

theorem matched_counterpart (alike : c.Counterpart d) (s : Session) (p : Pattern) :
    s.matched d p = s.matched c p := by
  rw [matched, matched, Command.group?_eq, Command.group?_eq, alike.predicates_eq]

theorem points_matched (s : Session) (keyword : c.keyword = .modifyNode)
    (first : c.patterns[0]? = some target) :
    Points s.graph.nodeTable (fun n => c.Picks (Entity.nodes.entity n)) (s.matched c target).ids where
  nodup := (matched_keeps s c target).nodup
  mem_iff id := by
    rw [← selected_iff_mem]
    constructor
    · intro ⟨n, stored, named, selected⟩
      exact ⟨n, stored, named, keyword, target, first, selected⟩
    · intro ⟨n, stored, named, _, p, here, selected⟩
      cases first.symm.trans here
      exact ⟨n, stored, named, selected⟩

theorem points_edgesWith (g : Graph) (keyword : c.keyword = .modifyEdge)
    (first : c.patterns[0]? = some target) :
    Points g.edgeTable (fun e => c.Picks (Entity.edges.entity e))
      ((g.edgesWith target.attributes).map Edge.endpoints) where
  nodup := (g.map_endpoints_edges ▸ g.edgeTable.keys_nodup).sublist
    (List.filter_sublist.map Edge.endpoints)
  mem_iff ends := by
    rw [List.mem_map]
    constructor
    · intro ⟨e, found, named⟩
      obtain ⟨stored, passes⟩ := List.mem_filter.1 found
      exact ⟨e, stored, named, keyword, target, first, passes⟩
    · intro ⟨e, stored, named, _, p, here, passes⟩
      cases first.symm.trans here
      exact ⟨e, List.mem_filter.2 ⟨stored, passes⟩, named⟩

/-- Says of two effects that the first adds to what a command picks and names it, and that the second
names the same entities as they were and leaves the session as it was. -/
structure Restores (s : Session) (c : Command) (e f : Effect) : Prop where
  gained : s.graph.Gained c e.session.graph
  bindings_eq : e.session.bindings = s.bindings
  lists : e.outcome.Lists c e.session.graph
  restored : f.session = s
  lists_again : f.outcome.Lists c s.graph

/-- A change with `val:1` and the one with `val:0` behind it. -/
theorem dispatch_restores (alike : c.Counterpart d) (accepted : c.check = .ok ())
    (adding : c.flag = some true) (taking : d.flag = some false) (changes : c.Changes)
    (new : ∀ x ∈ s.graph.entities, c.Picks x → x.attributes.Lacks c.update) :
    ∃ e f, s.dispatch c = .ok e ∧ e.session.dispatch d = .ok f ∧ s.Restores c e f := by
  obtain ⟨target, change, first, second, plain, plain'⟩ := Command.patterns_of_changes changes accepted
  obtain ⟨p, first', _, _, same⟩ := alike.pattern first
  obtain ⟨q, second', _, _, same'⟩ := alike.pattern second
  rw [same plain] at first'
  rw [same' plain'] at second'
  have update := Command.update_eq second
  cases changes with
  | inl keyword =>
      have done := dispatch_of_carries (.modifyNode (s := s) keyword adding first second)
      rw [← update] at done
      have points := points_matched s keyword first
      let t : Session := { s with graph := (s.graph.changeNodes true c.update (s.matched c target).ids).1 }
      have undone := dispatch_of_carries
        (.modifyNode (s := t) (alike.keyword_eq.trans keyword) taking first' second')
      rw [← update, matched_counterpart alike] at undone
      have points' := points_matched t keyword first
      have again := Graph.mem_picked_nodes_again new points points'
      have back := Graph.changeNodes_back new points points'
      refine ⟨_, _, done, undone, Graph.gained_changeNodes new keyword points, rfl, ?_, ?_, ?_⟩
      · exact Graph.lists_changeNodes keyword rfl
          (points'.congr points.nodup fun id => (again id).symm)
      · exact congrArg (fun g => ({ s with graph := g } : Session)) back
      · exact Graph.lists_changeNodes keyword back (points.congr points'.nodup again)
  | inr keyword =>
      have done := dispatch_of_carries (.modifyEdge (s := s) keyword adding first second)
      rw [← update] at done
      have points := points_edgesWith s.graph keyword first
      let t : Session := { s with graph := (s.graph.changeEdges true c.update
        ((s.graph.edgesWith target.attributes).map Edge.endpoints)).1 }
      have undone := dispatch_of_carries
        (.modifyEdge (s := t) (alike.keyword_eq.trans keyword) taking first' second')
      rw [← update] at undone
      have points' := points_edgesWith t.graph keyword first
      have again := Graph.mem_picked_edges_again new points points'
      have back := Graph.changeEdges_back new points points'
      refine ⟨_, _, done, undone, Graph.gained_changeEdges new keyword points, rfl, ?_, ?_, ?_⟩
      · exact Graph.lists_changeEdges keyword rfl
          (points'.congr points.nodup fun ends => (again ends).symm)
      · exact congrArg (fun g => ({ s with graph := g } : Session)) back
      · exact Graph.lists_changeEdges keyword back (points.congr points'.nodup again)

/-- A MODIFYNODE or MODIFYEDGE with `val:1` is taken back by the same command with `val:0`, if nothing
that it picks has one of its keys. In between every entity that it picks has its own attributes and
those of the change, all others are as they were, and the second command picks what the first one
did. -/
theorem runCommand_restores {s : Session} {c d : Command} (accepted : c.check = .ok ())
    (changes : c.Changes) (adding : c.flag = some true) (alike : c.Counterpart d)
    (taking : d.flag = some false)
    (new : ∀ x ∈ s.graph.entities, c.Picks x → x.attributes.Lacks c.update) :
    ∃ first second,
      (s.runCommand c).2.result = .ok first ∧
      s.graph.Gained c (s.runCommand c).1.graph ∧ (s.runCommand c).1.bindings = s.bindings ∧
      first.Lists c (s.runCommand c).1.graph ∧
      ((s.runCommand c).1.runCommand d).2.result = .ok second ∧
      ((s.runCommand c).1.runCommand d).1 = s ∧ second.Lists c s.graph := by
  obtain ⟨e, f, done, undone, restores⟩ :=
    dispatch_restores alike accepted adding taking changes new
  have accepted' := alike.check changes accepted (by rw [taking]; rfl)
  rw [runCommand_of_check accepted done, runCommand_of_check accepted' undone]
  exact ⟨e.outcome, f.outcome, rfl, restores.gained, restores.bindings_eq, restores.lists, rfl,
    restores.restored, restores.lists_again⟩

/-- Of three imported nodes two are given a rank, on which a predicate of the same command then
holds, and the rank is taken away again. -/
theorem runCommand_restores_read_back :
    ∃ (s : Session) (c d : Command), s.Reachable ∧ Statement.parse (splitWords
        "MODIFYNODE n: x id<3 OR rank>5 n: y rank:9 b: f val:1 ;
         MODIFYNODE n: x id<3 OR rank>5 n: y rank:9 b: f val:0 ;") = [.ok [c], .ok [d]] ∧
      ((s.runCommand c).1.graph.nodes.map fun n => n.attributes.toList) =
        [[("id", "1"), ("rank", "9")], [("id", "2"), ("rank", "9")], [("id", "3")]] ∧
      ((s.runCommand c).1.runCommand d).1 = s := by
  let s : Session := feed ∅ (.edges [.fields ["1", "2"], .fields ["2", "3"]])
  let rank : Attributes := .put ∅ "rank" "9" (by decide) (by decide)
  let truth (value : String) (usable : admissible value = true) : Attributes :=
    .put ∅ "val" value (by decide) usable
  let c : Command := { keyword := .modifyNode
                       patterns := [⟨.node, "x", ∅⟩, ⟨.node, "y", rank⟩,
                         ⟨.bool, "f", truth "1" (by decide)⟩]
                       predicates := [.predicate ⟨"id", .less, "3", "x"⟩, .combinator .or,
                         .predicate ⟨"rank", .greater, "5", "x"⟩]
                       flag := some true }
  let d : Command := { c with
    patterns := [⟨.node, "x", ∅⟩, ⟨.node, "y", rank⟩, ⟨.bool, "f", truth "0" (by decide)⟩]
    flag := some false }
  have reached : s.Reachable := .fed .empty _
  have alike : c.Counterpart d :=
    ⟨rfl, rfl, .cons ⟨rfl, rfl, fun _ => rfl⟩ (.cons ⟨rfl, rfl, fun _ => rfl⟩
      (.cons ⟨rfl, rfl, fun boolean => absurd rfl boolean⟩ .nil))⟩
  have new : ∀ x ∈ s.graph.entities, x.attributes.Lacks c.update := by
    simp only [Attributes.Lacks]
    decide +kernel
  obtain ⟨_, _, _, _, _, _, _, restored, _⟩ := runCommand_restores (s := s) (c := c) (d := d) rfl
    (.inl rfl) rfl alike rfl fun x hx _ => new x hx
  exact ⟨s, c, d, reached, by decide +kernel, by decide +kernel, restored⟩

end Session
end WordGraph
