import WordGraph.Proofs.OrderedMap
import WordGraph.Proofs.Query.Parsing

/-!
What the parser accepts and what it makes of it: the words before the semicolon have to be those of
well-formed commands, and the commands that it gives are the ones that their trees mean.
-/

namespace WordGraph

namespace Grammar

theorem forall₂_iff_eq_map {α β : Type} {R : α → β → Prop} {f : α → β} {xs : List α} (ys : List β)
    (h : ∀ x ∈ xs, ∀ y, R x y ↔ y = f x) : List.Forall₂ R xs ys ↔ ys = xs.map f := by
  induction xs generalizing ys with
  | nil => simp
  | cons x xs ih =>
      cases ys with
      | nil => simp
      | cons y ys =>
          have others := ih ys fun z hz => h z (List.mem_cons_of_mem _ hz)
          rw [List.forall₂_cons, h x (List.mem_cons_self ..), others, List.map_cons, List.cons.injEq]

/-- Says that the pairs of a tree may be stored. -/
def Storable (pairs : List (String × String)) : Prop :=
  ∀ e ∈ pairs, admissible e.1 = true ∧ admissible e.2 = true

theorem gather_table {pairs : List (String × String)} (h : Storable pairs) :
    (gather pairs).table = .ofList pairs := by
  induction pairs using List.reverseRecOn with
  | nil => rfl
  | append_singleton pairs e ih =>
      obtain ⟨hk, hv⟩ := h e (by simp)
      have inserted := (Attributes.insert_eq_ok_iff (gather pairs) _ e.1 e.2).2 ⟨hk, hv, rfl⟩
      have front := ih fun x hx => h x (List.mem_append_left _ hx)
      rw [gather_concat inserted, OrderedMap.ofList_concat, ← front]
      rfl

theorem PatternTree.yields_iff {t : PatternTree} (h : Storable t.pairs) (p : Pattern) :
    t.Yields p ↔ p = t.pattern := by
  constructor
  · intro y
    obtain ⟨role, name, attributes⟩ := p
    have same : attributes = gather t.pairs := by
      apply Attributes.ext_table
      rw [gather_table h]
      apply OrderedMap.ext_find?
      · exact y.keys_eq.trans (OrderedMap.keys_ofList t.pairs).symm
      · intro key
        exact (y.get?_eq key).trans (OrderedMap.find?_ofList t.pairs key).symm
    rw [PatternTree.pattern, ← y.role_eq, ← y.identifier_eq, ← same]
  · intro same
    subst same
    refine ⟨rfl, rfl, ?_, fun key => ?_⟩
    · rw [PatternTree.pattern, gather_table h, OrderedMap.keys_ofList]
    · rw [PatternTree.pattern, Attributes.get?, gather_table h, OrderedMap.find?_ofList]

theorem CommandTree.yields_iff {t : CommandTree} (h : ∀ p ∈ t.patterns, Storable p.pairs)
    (c : Command) : t.Yields c ↔ c = t.command := by
  have patterns (ps : List Pattern) :
      List.Forall₂ PatternTree.Yields t.patterns ps ↔ ps = t.patterns.map PatternTree.pattern :=
    forall₂_iff_eq_map ps fun p hp => PatternTree.yields_iff (h p hp)
  constructor
  · intro y
    obtain ⟨keyword, ps, predicates, flag⟩ := c
    rw [CommandTree.command, ← y.keyword_eq, ← (patterns ps).1 y.patterns, ← y.predicates_eq,
      ← y.flag_eq]
  · intro same
    subst same
    exact ⟨rfl, (patterns _).2 rfl, rfl, rfl⟩

theorem PatternTree.Valid.permitted {p : PatternTree} (h : p.Valid) {e : String × String}
    (he : e ∈ p.pairs) : Permitted p.role e.1 e.2 := by
  obtain ⟨i, hi, mem⟩ := List.mem_flatMap.1 he
  cases i with
  | clauses first rest => cases mem
  | pair key value =>
      obtain rfl := List.mem_singleton.1 mem
      exact h _ hi

section Words

variable {trees : List CommandTree} {ws : List String} {t : CommandTree} {p : PatternTree}

/-- Every token of a derivation is the class of a word. -/
theorem Derives.exists_word (h : Derives trees ws) (ht : t ∈ trees) (hp : p ∈ t.patterns)
    {token : Token} (mem : token ∈ p.tokens) : ∃ w ∈ ws, Token.ofWord w = token := by
  apply List.mem_map.1
  rw [h.tokens_eq]
  exact List.mem_flatMap.2 ⟨t, ht, List.mem_cons_of_mem _ (List.mem_flatMap.2 ⟨p, hp, mem⟩)⟩

/-- The pairs of well-formed commands may be stored, as their words have no other signs. -/
theorem Derives.storable (h : Derives trees ws) (ht : t ∈ trees) (hp : p ∈ t.patterns) :
    Storable p.pairs := by
  intro e he
  obtain ⟨keyFree, valueFree, _⟩ := PatternTree.Valid.permitted (h.wellFormed.valid t ht p hp) he
  have spelled : Token.pair e.1 e.2 ∈ p.tokens := by
    obtain ⟨i, hi, mem⟩ := List.mem_flatMap.1 he
    cases i with
    | clauses first rest => cases mem
    | pair key value =>
        obtain rfl := List.mem_singleton.1 mem
        refine List.mem_cons_of_mem _ (List.mem_cons_of_mem _ (List.mem_flatMap.2 ⟨_, hi, ?_⟩))
        exact List.mem_singleton.2 rfl
  obtain ⟨w, _, class_eq⟩ := h.exists_word ht hp spelled
  obtain ⟨_, plainKey, plainValue⟩ := (Token.ofWord_eq_pair_iff ..).1 class_eq
  exact ⟨(Token.admissible_iff_of_plain plainKey).2 keyFree,
    (Token.admissible_iff_of_plain plainValue).2 valueFree⟩

end Words

theorem Derives.yields_iff {trees : List CommandTree} {ws : List String} (h : Derives trees ws)
    (cs : List Command) :
    List.Forall₂ CommandTree.Yields trees cs ↔ cs = trees.map CommandTree.command :=
  forall₂_iff_eq_map cs fun _ ht => CommandTree.yields_iff fun _ hp => h.storable ht hp

end Grammar

namespace Statement

open Grammar

/-- A statement is accepted if it has a derivation, and gives the commands that the derivation means.
-/
theorem read_accepts (offset : Nat) (ws : List String) (h : ";" ∉ ws) :
    ((∃ cs, read offset (ws ++ [";"]) = .ok cs) ↔ ∃ trees, Derives trees ws) ∧
      ∀ cs, read offset (ws ++ [";"]) = .ok cs ↔
        ∃ trees, Derives trees ws ∧ List.Forall₂ CommandTree.Yields trees cs := by
  constructor
  · simp only [read_concat_iff h]
    constructor
    · intro ⟨_, trees, derived, _⟩
      exact ⟨trees, derived⟩
    · intro ⟨trees, derived⟩
      exact ⟨_, trees, derived, rfl⟩
  · intro cs
    rw [read_concat_iff h]
    exact exists_congr fun trees => and_congr_right fun derived => (derived.yields_iff cs).symm

/-- A pattern with a repeated key and joined comparisons, and a RETURN behind it. -/
theorem read_accepts_chained :
    ∃ cs trees,
      read 0 (["MATCH", "n:", "a", "x:1", "x:2", "y>3", "and", "y<9", "RETURN", "n:", "a"] ++ [";"]) =
        .ok cs ∧
      Derives trees ["MATCH", "n:", "a", "x:1", "x:2", "y>3", "and", "y<9", "RETURN", "n:", "a"] ∧
      List.Forall₂ CommandTree.Yields trees cs := by
  obtain ⟨cs, done⟩ : ∃ cs, read 0 (["MATCH", "n:", "a", "x:1", "x:2", "y>3", "and", "y<9", "RETURN",
      "n:", "a"] ++ [";"]) = .ok cs := ⟨_, rfl⟩
  obtain ⟨trees, derived, yields⟩ := ((read_accepts 0 _ (by decide)).2 cs).1 done
  exact ⟨cs, trees, done, derived, yields⟩

end Statement
end WordGraph
