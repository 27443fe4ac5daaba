import WordGraph.Proofs.Query.Grammar

/-!
Derivations token by token. A partial derivation is what the tokens read so far have built, and a
token may extend it. The derivations that are built are exactly the valid ones, each from the tokens
it stands for: what extends a valid derivation is valid, and every valid derivation other than the
empty one extends a shorter one.
-/

namespace WordGraph.Grammar

def PatternTree.add (p : PatternTree) (i : Item) : PatternTree := { p with items := p.items ++ [i] }

/-- Where a derivation stands: at its start, behind a keyword, behind a marker, behind a name or an
item, or behind a word that joins two comparisons. -/
inductive Partial where
  | start
  | opened (earlier : List CommandTree) (k : Keyword)
  | marked (earlier : List CommandTree) (k : Keyword) (ps : List PatternTree) (role : Role)
  | inside (earlier : List CommandTree) (k : Keyword) (ps : List PatternTree) (p : PatternTree)
  | joining (earlier : List CommandTree) (k : Keyword) (ps : List PatternTree) (p : PatternTree)
      (first : Clause) (rest : List (String × Clause)) (w : String)

namespace Partial

/-- The commands built so far, the open one included. -/
def trees : Partial → List CommandTree
  | .start => []
  | .opened e k => e ++ [⟨k, []⟩]
  | .marked e k ps _ => e ++ [⟨k, ps⟩]
  | .inside e k ps p => e ++ [⟨k, ps ++ [p]⟩]
  | .joining e k ps p first rest _ => e ++ [⟨k, ps ++ [p.add (.clauses first rest)]⟩]

/-- The token that waits for the next one. -/
def pending : Partial → List Token
  | .marked _ _ _ role => [.marker role]
  | .joining _ _ _ _ _ _ w => [.name w]
  | _ => []

def tokens (d : Partial) : List Token := d.trees.flatMap CommandTree.tokens ++ d.pending

def Joined : Partial → Prop
  | .joining _ _ _ _ _ _ w => (Combinator.ofWord? w).isSome = true
  | _ => True

structure Valid (d : Partial) : Prop where
  wellFormed : WellFormed d.trees
  joined : d.Joined

end Partial

section Trees

variable {e : List CommandTree} {t u : CommandTree}

theorem wellFormed_concat_iff : WellFormed (e ++ [t]) ↔
    (∀ x ∈ e, x.Valid ∧ x.patterns ≠ []) ∧ (∀ x ∈ e.tail, x.keyword = .returning) ∧
      (e ≠ [] → t.keyword = .returning) ∧ t.Valid := by
  have front : (e ++ [t]).dropLast = e := List.dropLast_concat
  have back : (∀ x ∈ (e ++ [t]).tail, x.keyword = .returning) ↔
      (∀ x ∈ e.tail, x.keyword = .returning) ∧ (e ≠ [] → t.keyword = .returning) := by
    cases e with
    | nil => simp
    | cons x e => simp [or_imp, forall_and]
  constructor
  · intro h
    have valid := h.valid
    have filled := h.filled
    rw [front] at filled
    refine ⟨fun x hx => ⟨valid x (by simp [hx]), filled x hx⟩, (back.1 h.returning).1,
      (back.1 h.returning).2, valid t (by simp)⟩
  · intro ⟨earlier, tail, last, valid⟩
    refine ⟨fun x hx => ?_, back.2 ⟨tail, last⟩, fun x hx => ?_⟩
    · rcases List.mem_append.1 hx with hx | hx
      · exact (earlier x hx).1
      · exact List.mem_singleton.1 hx ▸ valid
    · rw [front] at hx
      exact (earlier x hx).2

/-- The open command may be exchanged for another with the same keyword. -/
theorem WellFormed.exchange (h : WellFormed (e ++ [t])) (same : u.keyword = t.keyword)
    (valid : u.Valid) : WellFormed (e ++ [u]) := by
  obtain ⟨earlier, tail, last, _⟩ := wellFormed_concat_iff.1 h
  exact wellFormed_concat_iff.2 ⟨earlier, tail, fun he => same.trans (last he), valid⟩

theorem WellFormed.last_valid (h : WellFormed (e ++ [t])) : t.Valid :=
  (wellFormed_concat_iff.1 h).2.2.2

theorem WellFormed.chain (h : WellFormed (e ++ [t])) (some : t.patterns ≠ []) :
    WellFormed (e ++ [t] ++ [⟨.returning, []⟩]) := by
  obtain ⟨earlier, tail, last, valid⟩ := wellFormed_concat_iff.1 h
  refine wellFormed_concat_iff.2 ⟨fun x hx => ?_, h.returning, fun _ => rfl, ?_⟩
  · rcases List.mem_append.1 hx with hx | hx
    · exact earlier x hx
    · obtain rfl := List.mem_singleton.1 hx
      exact ⟨valid, some⟩
  · intro p hp
    cases hp

theorem WellFormed.unchain (h : WellFormed (e ++ [t] ++ [u])) :
    WellFormed (e ++ [t]) ∧ t.patterns ≠ [] ∧ u.keyword = .returning := by
  obtain ⟨earlier, tail, last, _⟩ := wellFormed_concat_iff.1 h
  have both := earlier t (by simp)
  refine ⟨⟨fun x hx => (earlier x hx).1, tail, fun x hx => ?_⟩, both.2, last (by simp)⟩
  rw [List.dropLast_concat] at hx
  exact (earlier x (List.mem_append_left _ hx)).2

theorem wellFormed_single (k : Keyword) : WellFormed ([] ++ [⟨k, []⟩]) := by
  refine wellFormed_concat_iff.2 ⟨?_, ?_, fun h => absurd rfl h, ?_⟩
  · intro x hx
    cases hx
  · intro x hx
    cases hx
  · intro p hp
    cases hp

theorem valid_concat_iff {k : Keyword} {ps : List PatternTree} {p : PatternTree} :
    CommandTree.Valid ⟨k, ps ++ [p]⟩ ↔ CommandTree.Valid ⟨k, ps⟩ ∧ p.Valid := by
  simp [CommandTree.Valid, or_imp, forall_and]

theorem PatternTree.valid_add_iff {p : PatternTree} {i : Item} :
    (p.add i).Valid ↔ p.Valid ∧ i.Valid p.role := by
  simp [PatternTree.Valid, PatternTree.add, or_imp, forall_and]

/-- A pattern has no items, or a last one. -/
theorem PatternTree.bare_or_add (p : PatternTree) :
    p = ⟨p.role, p.name, []⟩ ∨ ∃ q i, p = PatternTree.add q i := by
  obtain ⟨role, name, items⟩ := p
  rcases List.eq_nil_or_concat items with rfl | ⟨front, i, rfl⟩
  · exact .inl rfl
  · exact .inr ⟨⟨role, name, front⟩, i, by simp [PatternTree.add]⟩

theorem CommandTree.tokens_add (k : Keyword) (ps : List PatternTree) (p : PatternTree) (i : Item) :
    (CommandTree.mk k (ps ++ [p.add i])).tokens = (CommandTree.mk k (ps ++ [p])).tokens ++ i.tokens := by
  simp [CommandTree.tokens, PatternTree.tokens, PatternTree.add]

end Trees

namespace Partial

/-- What a token makes of a derivation, one case for each place in which it may stand. -/
inductive Extends : Partial → Token → Partial → Prop where
  | first (k : Keyword) : Extends .start (.keyword k) (.opened [] k)
  | firstMarker (e : List CommandTree) (k : Keyword) (role : Role) :
      Extends (.opened e k) (.marker role) (.marked e k [] role)
  | name (e : List CommandTree) (k : Keyword) (ps : List PatternTree) (role : Role) (w : String) :
      Extends (.marked e k ps role) (.name w) (.inside e k ps ⟨role, w, []⟩)
  | marker (e : List CommandTree) (k : Keyword) (ps : List PatternTree) (p : PatternTree) (role : Role) :
      Extends (.inside e k ps p) (.marker role) (.marked e k (ps ++ [p]) role)
  | pair (e : List CommandTree) (k : Keyword) (ps : List PatternTree) (p : PatternTree)
      (key value : String) (h : Permitted p.role key value) :
      Extends (.inside e k ps p) (.pair key value) (.inside e k ps (p.add (.pair key value)))
  | clause (e : List CommandTree) (k : Keyword) (ps : List PatternTree) (p : PatternTree) (c : Clause) :
      Extends (.inside e k ps p) c.token (.inside e k ps (p.add (.clauses c [])))
  | chain (e : List CommandTree) (k : Keyword) (ps : List PatternTree) (p : PatternTree) :
      Extends (.inside e k ps p) (.keyword .returning) (.opened (e ++ [⟨k, ps ++ [p]⟩]) .returning)
  | joint (e : List CommandTree) (k : Keyword) (ps : List PatternTree) (p : PatternTree)
      (c : Clause) (rest : List (String × Clause)) (w : String)
      (h : (Combinator.ofWord? w).isSome = true) :
      Extends (.inside e k ps (p.add (.clauses c rest))) (.name w) (.joining e k ps p c rest w)
  | joined (e : List CommandTree) (k : Keyword) (ps : List PatternTree) (p : PatternTree)
      (c : Clause) (rest : List (String × Clause)) (w : String) (d : Clause) :
      Extends (.joining e k ps p c rest w) d.token
        (.inside e k ps (p.add (.clauses c (rest ++ [(w, d)]))))

theorem Valid.extends {d d' : Partial} {t : Token} (h : d.Valid) (x : Extends d t d') :
    d'.Valid ∧ d'.tokens = d.tokens ++ [t] := by
  have wf := h.wellFormed
  cases x with
  | first k =>
      exact ⟨⟨wellFormed_single k, trivial⟩, by simp [tokens, trees, pending, CommandTree.tokens]⟩
  | firstMarker e k role => exact ⟨⟨wf, trivial⟩, by simp [tokens, trees, pending]⟩
  | name e k ps role w =>
      have valid : CommandTree.Valid ⟨k, ps ++ [⟨role, w, []⟩]⟩ :=
        valid_concat_iff.2 ⟨wf.last_valid, fun i hi => nomatch hi⟩
      refine ⟨⟨wf.exchange rfl valid, trivial⟩, ?_⟩
      simp [tokens, trees, pending, CommandTree.tokens, PatternTree.tokens]
  | marker e k ps p role => exact ⟨⟨wf, trivial⟩, by simp [tokens, trees, pending]⟩
  | pair e k ps p key value permitted =>
      obtain ⟨earlier, last⟩ := valid_concat_iff.1 wf.last_valid
      have valid : (p.add (.pair key value)).Valid :=
        PatternTree.valid_add_iff.2 ⟨last, permitted⟩
      refine ⟨⟨wf.exchange rfl (valid_concat_iff.2 ⟨earlier, valid⟩), trivial⟩, ?_⟩
      simp [tokens, trees, pending, CommandTree.tokens_add, Item.tokens]
  | clause e k ps p c =>
      obtain ⟨earlier, last⟩ := valid_concat_iff.1 wf.last_valid
      have valid : (p.add (.clauses c [])).Valid :=
        PatternTree.valid_add_iff.2 ⟨last, fun r hr => nomatch hr⟩
      refine ⟨⟨wf.exchange rfl (valid_concat_iff.2 ⟨earlier, valid⟩), trivial⟩, ?_⟩
      simp [tokens, trees, pending, CommandTree.tokens_add, Item.tokens]
  | chain e k ps p =>
      refine ⟨⟨wf.chain (by simp), trivial⟩, ?_⟩
      simp [tokens, trees, pending, CommandTree.tokens]
  | joint e k ps p c rest w combines => exact ⟨⟨wf, combines⟩, by simp [tokens, trees, pending]⟩
  | joined e k ps p c rest w d =>
      obtain ⟨earlier, last⟩ := valid_concat_iff.1 wf.last_valid
      obtain ⟨before, clauses⟩ := PatternTree.valid_add_iff.1 last
      have combines : (Combinator.ofWord? w).isSome = true := h.joined
      have valid : (p.add (.clauses c (rest ++ [(w, d)]))).Valid := by
        refine PatternTree.valid_add_iff.2 ⟨before, fun r hr => ?_⟩
        rcases List.mem_append.1 hr with hr | hr
        · exact clauses r hr
        · obtain rfl := List.mem_singleton.1 hr
          exact combines
      refine ⟨⟨wf.exchange rfl (valid_concat_iff.2 ⟨earlier, valid⟩), trivial⟩, ?_⟩
      simp [tokens, trees, pending, CommandTree.tokens_add, Item.tokens]

theorem Valid.exists_extends {d : Partial} (h : d.Valid) (begun : d ≠ .start) :
    ∃ d₀ t, d₀.Valid ∧ Extends d₀ t d := by
  have wf := h.wellFormed
  cases d with
  | start => exact absurd rfl begun
  | opened e k =>
      rcases List.eq_nil_or_concat e with rfl | ⟨e, t, rfl⟩
      · exact ⟨.start, _, ⟨⟨nofun, nofun, nofun⟩, trivial⟩, .first k⟩
      · rw [List.concat_eq_append] at wf ⊢
        obtain ⟨earlier, filled, chained⟩ := wf.unchain
        obtain ⟨k', ps⟩ := t
        cases chained
        rcases List.eq_nil_or_concat ps with rfl | ⟨ps, p, rfl⟩
        · exact absurd rfl filled
        · rw [List.concat_eq_append] at earlier ⊢
          exact ⟨.inside e k' ps p, _, ⟨earlier, trivial⟩, .chain e k' ps p⟩
  | marked e k ps role =>
      rcases List.eq_nil_or_concat ps with rfl | ⟨ps, p, rfl⟩
      · exact ⟨.opened e k, _, ⟨wf, trivial⟩, .firstMarker e k role⟩
      · rw [List.concat_eq_append] at wf ⊢
        exact ⟨.inside e k ps p, _, ⟨wf, trivial⟩, .marker e k ps p role⟩
  | inside e k ps p =>
      obtain ⟨earlier, last⟩ := valid_concat_iff.1 wf.last_valid
      rcases p.bare_or_add with bare | ⟨q, i, rfl⟩
      · rw [bare]
        exact ⟨.marked e k ps p.role, _, ⟨wf.exchange rfl earlier, trivial⟩, .name e k ps p.role p.name⟩
      · obtain ⟨before, item⟩ := PatternTree.valid_add_iff.1 last
        have shorter : WellFormed (e ++ [⟨k, ps ++ [q]⟩]) :=
          wf.exchange rfl (valid_concat_iff.2 ⟨earlier, before⟩)
        cases i with
        | pair key value =>
            exact ⟨.inside e k ps q, _, ⟨shorter, trivial⟩, .pair e k ps q key value item⟩
        | clauses c rest =>
            rcases List.eq_nil_or_concat rest with rfl | ⟨rest, ⟨w, d⟩, rfl⟩
            · exact ⟨.inside e k ps q, _, ⟨shorter, trivial⟩, .clause e k ps q c⟩
            · rw [List.concat_eq_append] at item ⊢
              have open_clauses : (q.add (.clauses c rest)).Valid :=
                PatternTree.valid_add_iff.2 ⟨before, fun r hr => item r (List.mem_append_left _ hr)⟩
              have combines : (Combinator.ofWord? w).isSome = true := item (w, d) (by simp)
              exact ⟨.joining e k ps q c rest w, _,
                ⟨wf.exchange rfl (valid_concat_iff.2 ⟨earlier, open_clauses⟩), combines⟩,
                .joined e k ps q c rest w d⟩
  | joining e k ps p c rest w =>
      exact ⟨.inside e k ps (p.add (.clauses c rest)), _, ⟨wf, trivial⟩, .joint e k ps p c rest w h.joined⟩

/-- What a row of tokens builds. -/
inductive Builds : List Token → Partial → Prop where
  | nil : Builds [] .start
  | concat {ts : List Token} {t : Token} {d d' : Partial} (h : Builds ts d) (x : Extends d t d') :
      Builds (ts ++ [t]) d'

theorem valid_start : Valid .start := ⟨⟨nofun, nofun, nofun⟩, trivial⟩

theorem Builds.valid {ts : List Token} {d : Partial} (h : Builds ts d) :
    d.Valid ∧ d.tokens = ts := by
  induction h with
  | nil => exact ⟨valid_start, rfl⟩
  | concat h x ih =>
      obtain ⟨valid, rfl⟩ := ih
      exact valid.extends x

/-- Takes the last token off a derivation until none is left. -/
theorem Valid.builds {d : Partial} (h : d.Valid) : Builds d.tokens d := by
  by_cases begun : d = .start
  · subst begun
    exact .nil
  · obtain ⟨d₀, t, valid, x⟩ := h.exists_extends begun
    have longer : d.tokens = d₀.tokens ++ [t] := (valid.extends x).2
    have shorter : d₀.tokens.length < d.tokens.length := by simp [longer]
    rw [longer]
    exact .concat valid.builds x
termination_by d.tokens.length

/-- Says that a semicolon may follow. -/
def Closed (d : Partial) : Prop := d.pending = []

theorem exists_closed {trees : List CommandTree} (h : WellFormed trees) :
    ∃ d : Partial, d.Valid ∧ d.Closed ∧ d.trees = trees := by
  rcases List.eq_nil_or_concat trees with rfl | ⟨e, ⟨k, ps⟩, rfl⟩
  · exact ⟨.start, valid_start, rfl, rfl⟩
  · rw [List.concat_eq_append] at h ⊢
    rcases List.eq_nil_or_concat ps with rfl | ⟨ps, p, rfl⟩
    · exact ⟨.opened e k, ⟨h, trivial⟩, rfl, rfl⟩
    · rw [List.concat_eq_append] at h ⊢
      exact ⟨.inside e k ps p, ⟨h, trivial⟩, rfl, rfl⟩

/-- The derivations behind which a semicolon may stand are those of well-formed commands. -/
theorem exists_builds_closed_iff (ts : List Token) (trees : List CommandTree) :
    (∃ d, Builds ts d ∧ d.Closed ∧ d.trees = trees) ↔
      WellFormed trees ∧ ts = trees.flatMap CommandTree.tokens := by
  constructor
  · intro ⟨d, built, closed, same⟩
    obtain ⟨valid, rfl⟩ := built.valid
    subst same
    refine ⟨valid.wellFormed, ?_⟩
    rw [tokens, show d.pending = [] from closed, List.append_nil]
  · intro ⟨wf, spelled⟩
    obtain ⟨d, valid, closed, same⟩ := exists_closed wf
    have whole : d.tokens = ts := by
      rw [tokens, show d.pending = [] from closed, List.append_nil, same, spelled]
    exact ⟨d, whole ▸ valid.builds, closed, same⟩

end Partial
end WordGraph.Grammar
