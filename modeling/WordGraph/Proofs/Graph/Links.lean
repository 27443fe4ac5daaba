import WordGraph.Proofs.Graph.Adjacency

/-!
Histories of an adjacency. A history of changes says of every pair on its own whether it is linked:
the last change that bears on the pair decides. Whatever identities the changes name, both tables
list the pairs that are linked, every row in the order of the changes at which its links came in for
good, and the links taken out with a node are those that touch it.
-/

namespace WordGraph.Adjacency

inductive Change where
  | link (source target : NodeId)
  | unlink (source target : NodeId)
  | detach (id : NodeId)
  | clear
  deriving DecidableEq

def perform (a : Adjacency) : Change → Adjacency
  | .link source target => a.link source target
  | .unlink source target => a.unlink source target
  | .detach id => a.detach id
  | .clear => ∅

def run (history : List Change) : Adjacency := history.foldl perform ∅

/-- Whether a pair is linked after a change, from whether it was before. -/
def Change.leaves (e : Endpoints) (linked : Bool) : Change → Bool
  | .link source target => linked || e = (source, target)
  | .unlink source target => linked && e ≠ (source, target)
  | .detach id => linked && (e.1 ≠ id && e.2 ≠ id)
  | .clear => false

/-- Whether a history leaves a pair linked. -/
def holds (history : List Change) (e : Endpoints) : Bool := history.foldl (Change.leaves e) false

/-- Says of a pair that it came in at this change of a history and has been linked since. -/
structure CameAt (history : List Change) (e : Endpoints) (moment : Nat) : Prop where
  within : moment < history.length
  absent : holds (history.take moment) e = false
  since : ∀ k, moment < k → k ≤ history.length → holds (history.take k) e = true

/-- Says that both pairs are linked and that the first of them came in before the other. -/
def CameBefore (history : List Change) (e f : Endpoints) : Prop :=
  ∃ m n, CameAt history e m ∧ CameAt history f n ∧ m < n

/-- What an adjacency has to answer behind a history. -/
structure Reflects (a : Adjacency) (history : List Change) : Prop where
  linked_eq : ∀ source target, a.linked source target = holds history (source, target)
  mem_successors_iff : ∀ source target,
    target ∈ a.successors source ↔ holds history (source, target) = true
  mem_predecessors_iff : ∀ source target,
    source ∈ a.predecessors target ↔ holds history (source, target) = true
  successors_nodup : ∀ id, (a.successors id).Nodup
  predecessors_nodup : ∀ id, (a.predecessors id).Nodup
  successors_ordered : ∀ id,
    (a.successors id).Pairwise fun t u => CameBefore history (id, t) (id, u)
  predecessors_ordered : ∀ id,
    (a.predecessors id).Pairwise fun s r => CameBefore history (s, id) (r, id)
  outDegree_eq : ∀ id, a.outDegree id = (a.successors id).length
  inDegree_eq : ∀ id, a.inDegree id = (a.predecessors id).length

/-- What is taken out with a node: every link that touches it, once, those that leave it first. -/
structure TakesOut (a : Adjacency) (history : List Change) (id : NodeId) (links : List Endpoints) :
    Prop where
  mem_iff : ∀ e, e ∈ links ↔ holds history e = true ∧ (e.1 = id ∨ e.2 = id)
  nodup : links.Nodup
  leaving_first : links.Pairwise fun e f => f.1 = id → e.1 = id
  after : (a.detach id).Reflects (history ++ [.detach id])
  holds_after : ∀ e, holds (history ++ [.detach id]) e = true ↔ holds history e = true ∧ e ∉ links

section Denotation

variable (history : List Change) (c : Change) (e : Endpoints)

theorem run_concat : run (history ++ [c]) = (run history).perform c := by
  rw [run, run, List.foldl_append]
  rfl

theorem holds_concat : holds (history ++ [c]) e = c.leaves e (holds history e) := by
  rw [holds, holds, List.foldl_append]
  rfl

end Denotation

namespace CameAt

variable {history : List Change} {c : Change} {e f : Endpoints} {m n : Nat}

theorem unique (h : CameAt history e m) (h' : CameAt history e n) : m = n := by
  have not_later {k l : Nat} (hk : CameAt history e k) (hl : CameAt history e l) : ¬ k < l := by
    intro later
    have there := hk.since l later (Nat.le_of_lt hl.within)
    exact Bool.false_ne_true (hl.absent.symm.trans there)
  exact Nat.le_antisymm (Nat.le_of_not_lt (not_later h' h)) (Nat.le_of_not_lt (not_later h h'))

/-- A pair that is still linked after one more change came in when it came in before. -/
theorem concat (h : CameAt history e m) (stays : holds (history ++ [c]) e = true) :
    CameAt (history ++ [c]) e m where
  within := by
    rw [List.length_append, List.length_singleton]
    exact Nat.lt_succ_of_lt h.within
  absent := by
    rw [List.take_append_of_le_length (Nat.le_of_lt h.within)]
    exact h.absent
  since k later bound := by
    rw [List.length_append, List.length_singleton] at bound
    rcases Nat.lt_or_eq_of_le bound with before | last
    · rw [List.take_append_of_le_length (Nat.le_of_lt_succ before)]
      exact h.since k later (Nat.le_of_lt_succ before)
    · rw [last, List.take_of_length_le (by simp)]
      exact stays

theorem last (new : holds history e = false) (comes : holds (history ++ [c]) e = true) :
    CameAt (history ++ [c]) e history.length where
  within := by
    rw [List.length_append, List.length_singleton]
    exact Nat.lt_succ_self _
  absent := by
    rw [List.take_append_of_le_length (Nat.le_refl _), List.take_length]
    exact new
  since k later bound := by
    rw [List.take_of_length_le (by rw [List.length_append, List.length_singleton]; omega)]
    exact comes

end CameAt

theorem CameBefore.ne {history : List Change} {e f : Endpoints} (h : CameBefore history e f) : e ≠ f := by
  intro same
  subst same
  obtain ⟨m, n, he, hf, before⟩ := h
  exact Nat.lt_irrefl n (he.unique hf ▸ before)

section Listing

/-- The list of links that a change makes of another one. -/
def Change.revise (links : List Endpoints) : Change → List Endpoints
  | .link source target => if (source, target) ∈ links then links else links ++ [(source, target)]
  | .unlink source target => links.filter (· ≠ (source, target))
  | .detach id => links.filter fun e => e.1 ≠ id && e.2 ≠ id
  | .clear => []

def links (history : List Change) : List Endpoints := history.foldl Change.revise []

theorem links_concat (history : List Change) (c : Change) :
    links (history ++ [c]) = c.revise (links history) := by
  rw [links, links, List.foldl_append]
  rfl

theorem Lists.perform {a : Adjacency} {known : List Endpoints} (h : a.Lists known) (c : Change) :
    (a.perform c).Lists (c.revise known) := by
  cases c with
  | link source target =>
      rw [Change.revise]
      split
      · rename_i there
        exact h.link_known there
      · rename_i new
        exact h.link_new new
  | unlink source target => exact h.unlink source target
  | detach id => exact h.detach id
  | clear => exact lists_empty

theorem lists_run (history : List Change) : (run history).Lists (links history) := by
  induction history using List.reverseRecOn with
  | nil => exact lists_empty
  | append_singleton history c ih =>
      rw [run_concat, links_concat]
      exact ih.perform c

theorem mem_revise_iff (known : List Endpoints) (c : Change) (e : Endpoints) :
    e ∈ c.revise known ↔ c.leaves e (e ∈ known) = true := by
  cases c with
  | link source target =>
      rw [Change.revise]
      split
      · rename_i there
        have known_or : e ∈ known ∨ e = (source, target) ↔ e ∈ known :=
          or_iff_left_of_imp fun same => same ▸ there
        simp [Change.leaves, known_or]
      · simp [Change.leaves]
  | unlink source target => simp [Change.revise, Change.leaves]
  | detach id => simp [Change.revise, Change.leaves]
  | clear => simp [Change.revise, Change.leaves]

theorem mem_links_iff (history : List Change) (e : Endpoints) :
    e ∈ links history ↔ holds history e = true := by
  induction history using List.reverseRecOn with
  | nil => exact iff_of_false List.not_mem_nil Bool.false_ne_true
  | append_singleton history c ih =>
      have same : decide (e ∈ links history) = holds history e := by
        rw [Bool.eq_iff_iff, decide_eq_true_iff, ih]
      rw [links_concat, mem_revise_iff, holds_concat, same]

/-- A change drops links from the list or puts one behind the others. -/
theorem revise_sublist_or (known : List Endpoints) (c : Change) :
    (c.revise known).Sublist known ∨ ∃ e, e ∉ known ∧ c.revise known = known ++ [e] := by
  cases c with
  | link source target =>
      rw [Change.revise]
      split
      · exact .inl (List.Sublist.refl known)
      · rename_i new
        exact .inr ⟨_, new, rfl⟩
  | unlink source target => exact .inl List.filter_sublist
  | detach id => exact .inl List.filter_sublist
  | clear => exact .inl (List.nil_sublist known)

theorem exists_cameAt {history : List Change} {e : Endpoints} (h : holds history e = true) :
    ∃ m, CameAt history e m := by
  induction history using List.reverseRecOn with
  | nil => cases h
  | append_singleton history c ih =>
      cases there : holds history e with
      | true =>
          obtain ⟨m, came⟩ := ih there
          exact ⟨m, came.concat h⟩
      | false => exact ⟨history.length, .last there h⟩

/-- The list is in the order in which its links came in for good. -/
theorem links_ordered (history : List Change) :
    (links history).Pairwise (CameBefore history) := by
  induction history using List.reverseRecOn with
  | nil => exact .nil
  | append_singleton history c ih =>
      have stays {e : Endpoints} (he : e ∈ c.revise (links history)) :
          holds (history ++ [c]) e = true := by
        rw [← mem_links_iff, links_concat]
        exact he
      have carried {e f : Endpoints} (he : e ∈ c.revise (links history))
          (hf : f ∈ c.revise (links history)) (before : CameBefore history e f) :
          CameBefore (history ++ [c]) e f := by
        obtain ⟨m, n, came, came', lt⟩ := before
        exact ⟨m, n, came.concat (stays he), came'.concat (stays hf), lt⟩
      rw [links_concat]
      rcases revise_sublist_or (links history) c with fewer | ⟨new, unknown, more⟩
      · exact (ih.sublist fewer).imp_of_mem carried
      · have inside {e : Endpoints} (he : e ∈ links history ++ [new]) :
            e ∈ c.revise (links history) := more ▸ he
        rw [more, List.pairwise_append]
        refine ⟨ih.imp_of_mem fun he hf => ?_, List.pairwise_singleton _ _, fun e he f hf => ?_⟩
        · exact carried (inside (List.mem_append_left _ he)) (inside (List.mem_append_left _ hf))
        · obtain rfl := List.mem_singleton.1 hf
          obtain ⟨m, came⟩ := exists_cameAt ((mem_links_iff history e).1 he)
          have absent : holds history f = false := by
            rw [← Bool.not_eq_true, ← mem_links_iff]
            exact unknown
          exact ⟨m, history.length, came.concat (stays (inside (List.mem_append_left _ he))),
            .last absent (stays (inside (List.mem_append_right _ hf))), came.within⟩

theorem links_nodup (history : List Change) : (links history).Nodup :=
  (links_ordered history).imp fun before => before.ne

end Listing

/-- A row of a table stands in the order of its links, which are made again from its values. -/
theorem row_ordered (history : List Change) {key value : Endpoints → NodeId} {id : NodeId}
    (pair : NodeId → Endpoints) (back : ∀ e, key e = id → pair (value e) = e) :
    (((links history).filter (key · = id)).map value).Pairwise fun x y =>
      CameBefore history (pair x) (pair y) := by
  have found {e : Endpoints} (he : e ∈ (links history).filter (key · = id)) : key e = id :=
    of_decide_eq_true (List.mem_filter.1 he).2
  rw [List.pairwise_map]
  refine ((links_ordered history).filter _).imp_of_mem fun {e f} he hf before => ?_
  rw [back e (found he), back f (found hf)]
  exact before

theorem reflects_run (history : List Change) : (run history).Reflects history := by
  have lists := lists_run history
  have leaving (id : NodeId) :
      ((run history).successors id).Pairwise fun t u => CameBefore history (id, t) (id, u) := by
    rw [lists.successors_eq]
    exact row_ordered history (id, ·) fun e starts => Prod.ext starts.symm rfl
  have entering (id : NodeId) :
      ((run history).predecessors id).Pairwise fun s r => CameBefore history (s, id) (r, id) := by
    rw [lists.predecessors_eq]
    exact row_ordered history (·, id) fun e ends => Prod.ext rfl ends.symm
  exact {
    linked_eq := fun source target => by
      rw [Bool.eq_iff_iff, lists.linked_iff, mem_links_iff]
    mem_successors_iff := fun source target => by rw [lists.mem_successors, mem_links_iff]
    mem_predecessors_iff := fun source target => by rw [lists.mem_predecessors, mem_links_iff]
    successors_nodup := fun id => (leaving id).imp fun before => mt (congrArg (id, ·)) before.ne
    predecessors_nodup := fun id => (entering id).imp fun before => mt (congrArg (·, id)) before.ne
    successors_ordered := leaving
    predecessors_ordered := entering
    outDegree_eq := fun _ => rfl
    inDegree_eq := fun _ => rfl }

theorem takesOut_incident (history : List Change) (id : NodeId) :
    (run history).TakesOut history id ((run history).incident id) := by
  have lists := lists_run history
  have touching (e : Endpoints) :
      e ∈ (run history).incident id ↔ holds history e = true ∧ (e.1 = id ∨ e.2 = id) := by
    rw [lists.mem_incident, mem_links_iff]
  refine ⟨touching, lists.incident_nodup (links_nodup history) id, ?_, ?_, fun e => ?_⟩
  · have leaves {e : Endpoints} (he : e ∈ (links history).filter (·.1 = id)) : e.1 = id :=
      of_decide_eq_true (List.mem_filter.1 he).2
    have enters {e : Endpoints} (he : e ∈ (links history).filter fun e => e.2 = id && e.1 ≠ id) :
        e.1 ≠ id := by
      have := (List.mem_filter.1 he).2
      simp only [Bool.and_eq_true, decide_eq_true_eq] at this
      exact this.2
    rw [lists.incident_eq_filter, List.pairwise_append]
    refine ⟨?_, ?_, ?_⟩
    · exact List.pairwise_of_forall_mem_list fun e he f _ _ => leaves he
    · exact List.pairwise_of_forall_mem_list fun e _ f hf starts => absurd starts (enters hf)
    · exact fun e he f _ _ => leaves he
  · have next := reflects_run (history ++ [.detach id])
    rwa [run_concat] at next
  · rw [touching, holds_concat, Change.leaves]
    simp only [ne_eq, Bool.and_eq_true, decide_eq_true_eq]
    tauto

/-- Behind every history of changes the adjacency answers what the history says of each pair, and a
node is taken out with the links that touch it. -/
theorem run_refines (history : List Change) :
    (run history).Reflects history ∧
      ∀ id, (run history).TakesOut history id ((run history).incident id) :=
  ⟨reflects_run history, takesOut_incident history⟩

/-- A link that was cut and made again stands behind the others, and a loop is taken out once. -/
example :
    let history : List Change :=
      [.link ⟨1⟩ ⟨2⟩, .link ⟨1⟩ ⟨1⟩, .link ⟨3⟩ ⟨1⟩, .unlink ⟨1⟩ ⟨2⟩, .link ⟨1⟩ ⟨2⟩]
    (run history).incident ⟨1⟩ = [(⟨1⟩, ⟨1⟩), (⟨1⟩, ⟨2⟩), (⟨3⟩, ⟨1⟩)] := by decide

end WordGraph.Adjacency
