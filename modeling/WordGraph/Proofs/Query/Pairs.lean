import WordGraph.Proofs.Query.Malformed
import WordGraph.Proofs.Query.Reachable
import WordGraph.Proofs.Query.Writing

/-!
Attributes as words and as entries. The classes of words look for signs in a whole word and the store
looks at a key and a value, but they agree on what an attribute is. So the store refuses no pair of a
text, and the attributes that a session can hold are those that a query can be given and gives back.
-/

namespace WordGraph

open Grammar

section Words

variable {w key value : String}

theorem Attributes.exists_insert_iff (a : Attributes) (key value : String) :
    (∃ b, a.insert key value = .ok b) ↔ admissible key = true ∧ admissible value = true := by
  simp only [insert_eq_ok_iff]
  constructor
  · rintro ⟨_, hk, hv, _⟩
    exact ⟨hk, hv⟩
  · rintro ⟨hk, hv⟩
    exact ⟨_, hk, hv, rfl⟩

theorem Attributes.admissible_of_get? {a : Attributes} (found : a.get? key = some value) :
    admissible key = true ∧ admissible value = true :=
  a.admissible_entries (key, value) ((OrderedMap.find?_eq_some_iff ..).1 found)

theorem blankFree_pair_iff : BlankFree (key ++ ":" ++ value) ↔ BlankFree key ∧ BlankFree value := by
  have colon : Text.isBlank ':' = false := by decide
  simp only [BlankFree, Token.toList_pair, List.forall_mem_append, List.forall_mem_cons, colon,
    true_and]

/-- A word without blanks is a pair exactly if it is the text of an attribute that is stored. -/
theorem Token.ofWord_eq_pair_iff_insert (free : BlankFree w) (key value : String) (a : Attributes) :
    ofWord w = .pair key value ↔ w = key ++ ":" ++ value ∧ ∃ b, a.insert key value = .ok b := by
  rw [ofWord_eq_pair_iff, Attributes.exists_insert_iff]
  refine and_congr_right fun same => ?_
  obtain ⟨keyFree, valueFree⟩ := blankFree_pair_iff.1 (same ▸ free)
  have keys : admissible key = true ↔ Plain key := (admissible_iff key).trans (and_iff_left keyFree)
  have values : admissible value = true ↔ Plain value :=
    (admissible_iff value).trans (and_iff_left valueFree)
  rw [keys, values]

end Words

section Errors

/-- Says that an error is what the store says of an attribute that it refuses, as such or passed on. -/
def Error.OfInsert : Error → Prop
  | .attributes _ | .parse (.malformed _ (.badPair _)) | .snapshot (.image (.badPair _)) => True
  | _ => False

theorem Error.OfCommand.not_ofInsert {e : Error} (h : e.OfCommand) : ¬e.OfInsert := by
  cases e with
  | rule keyword fault | halt reason => exact id
  | _ => exact h.elim

/-- No word without blanks is read as a pair that the store refuses. -/
theorem Statement.parse_not_ofInsert {ws : List String} (free : ∀ w ∈ ws, BlankFree w)
    {e : ParseError} (failed : .error e ∈ parse ws) : ¬(Error.parse e).OfInsert := by
  intro stored
  rcases arises_of_parse failed with ⟨w, hw, arises⟩ | ⟨_, rfl⟩
  · match e with
    | .malformed place (.badPair fault) =>
        obtain ⟨key, value, class_eq, a, refused⟩ := arises
        obtain ⟨_, b, inserted⟩ :=
          (Token.ofWord_eq_pair_iff_insert (free w hw) key value a).1 class_eq
        cases refused.symm.trans inserted
  · exact stored

-- Words that were not split from a text may have blanks, and then the store has its say.
example : Statement.parse ["CREATE", "n:", "a", "k :v", ";"] =
    [.error (.malformed 4 (.badPair (.unusable .key "k ")))] := by
  decide +kernel

theorem Session.execute_not_ofInsert (s : Session) {text : String} {r : Report}
    (reported : r ∈ (s.execute text).2) {e : Error} (failed : r.result = .error e) : ¬e.OfInsert := by
  rcases runStatements_failsOnly reported e failed with command | ⟨_, rfl, inside⟩
  · exact command.not_ofInsert
  · exact Statement.parse_not_ofInsert (fun _ hw => plain_of_mem_splitWords hw) inside

end Errors

namespace Grammar

section Adding

variable {e : List CommandTree} {k : Keyword} {ps : List PatternTree} {p : PatternTree}
  {key value w : String} {ws : List String}

/-- A word that is read as a pair may stand behind the words of a pattern that permits the pair. -/
theorem Derives.add_pair (h : Derives (e ++ [⟨k, ps ++ [p]⟩]) ws) (permitted : Permitted p.role key value)
    (spelled : Token.ofWord w = .pair key value) :
    Derives (e ++ [⟨k, ps ++ [p.add (.pair key value)]⟩]) (ws ++ [w]) where
  wellFormed := by
    obtain ⟨earlier, last⟩ := valid_concat_iff.1 h.wellFormed.last_valid
    have valid : (p.add (.pair key value)).Valid := PatternTree.valid_add_iff.2 ⟨last, permitted⟩
    exact h.wellFormed.exchange rfl (valid_concat_iff.2 ⟨earlier, valid⟩)
  tokens_eq := by
    rw [List.map_append, h.tokens_eq, List.map_singleton, spelled]
    simp [CommandTree.tokens_add, Item.tokens]

theorem CommandTree.command_put (other : p.role ≠ .bool) {b : Attributes}
    (inserted : p.pattern.attributes.insert key value = .ok b) :
    (CommandTree.mk k (ps ++ [p.add (.pair key value)])).command =
      { (CommandTree.mk k (ps ++ [p])).command with
        patterns := ps.map PatternTree.pattern ++ [{ p.pattern with attributes := b }] } := by
  rw [command_add_pair inserted, if_neg other, Option.none_or]

end Adding

/-- Commands that trees mean end as the trees do. -/
theorem CommandTree.exists_last {trees : List CommandTree} {cs : List Command} {c : Command}
    {ps : List Pattern} {p : Pattern} (commands : cs ++ [c] = trees.map command)
    (last : c.patterns = ps ++ [p]) :
    ∃ e k qs q, trees = e ++ [⟨k, qs ++ [q]⟩] ∧ e.map command = cs ∧
      (CommandTree.mk k (qs ++ [q])).command = c ∧ qs.map PatternTree.pattern = ps ∧ q.pattern = p := by
  obtain ⟨e, _, rfl, earlier, final⟩ := List.append_eq_map_iff.1 commands
  obtain ⟨⟨k, _⟩, rfl, rfl⟩ := List.map_eq_singleton_iff.1 final
  obtain ⟨qs, _, rfl, before, final⟩ := List.append_eq_map_iff.1 last.symm
  obtain ⟨q, rfl, same⟩ := List.map_eq_singleton_iff.1 final
  exact ⟨e, k, qs, q, rfl, earlier, rfl, before, same⟩

end Grammar

namespace Statement

variable {text key value : String} {cs : List Command} {c : Command} {ps : List Pattern} {p : Pattern}

/-- A text that is read as one statement is that of a derivation, once its semicolon is taken off. -/
theorem derives_of_parseText (accepted : parseText (text ++ " ;") = [.ok cs]) :
    ∃ trees, Derives trees (splitWords text) ∧ cs = trees.map CommandTree.command := by
  rw [parseText, splitWords_terminated] at accepted
  have closed : Closed (splitWords text ++ [";"]) := .inr List.getLast?_concat
  have single := congrArg List.length accepted
  rw [length_parse, if_pos closed, List.count_append, List.count_singleton_self] at single
  have plain : ";" ∉ splitWords text := List.count_eq_zero.1 (Nat.succ.inj single)
  rw [parse_single plain] at accepted
  exact (read_concat_iff plain 0 cs).1 (List.singleton_inj.1 accepted)

/-- An attribute that is written behind a statement is put into its last pattern. -/
theorem parseText_put (accepted : parseText (text ++ " ;") = [.ok (cs ++ [c])])
    (last : c.patterns = ps ++ [p]) (role : p.role ≠ .bool) {b : Attributes}
    (inserted : p.attributes.insert key value = .ok b) :
    parseText (text ++ " " ++ (key ++ ":" ++ value) ++ " ;") =
      [.ok (cs ++ [{ c with patterns := ps ++ [{ p with attributes := b }] }])] := by
  obtain ⟨hk, hv⟩ := (p.attributes.exists_insert_iff key value).1 ⟨b, inserted⟩
  obtain ⟨keyPlain, keyFree⟩ := (Token.admissible_iff key).1 hk
  obtain ⟨valuePlain, valueFree⟩ := (Token.admissible_iff value).1 hv
  have spelled := Token.ofWord_of_plain keyPlain valuePlain
  obtain ⟨trees, derived, commands⟩ := derives_of_parseText accepted
  obtain ⟨e, k, qs, q, rfl, rfl, rfl, rfl, rfl⟩ := CommandTree.exists_last commands last
  have other : q.role ≠ .bool := role
  have longer := derived.add_pair ⟨keyFree, valueFree, fun bool => absurd bool other⟩ spelled
  have words : splitWords (text ++ " " ++ (key ++ ":" ++ value)) =
      splitWords text ++ [key ++ ":" ++ value] := by
    rw [splitWords_append_blank _ _ rfl (by decide), splitWords_pair hk hv]
  have read := (read_concat_iff longer.terminator_not_mem 0 _).2 ⟨_, longer, rfl⟩
  rw [parseText, splitWords_terminated, words, parse_single longer.terminator_not_mem, read,
    List.map_append, List.map_singleton, CommandTree.command_put other inserted]

end Statement

/-- Says that a node or an edge of a graph has an attribute. -/
def Graph.Holds (g : Graph) (key value : String) : Prop :=
  (∃ n ∈ g.nodes, n.attributes.get? key = some value) ∨
    ∃ e ∈ g.edges, e.attributes.get? key = some value

/-- Says that a query can be given an attribute and gives it back. The attribute is one word; behind
any statement that ends in a node or edge pattern it is put into this pattern, and nothing else
changes; and a MATCH finds in every session exactly what has it. -/
structure ReadBack (key value : String) : Prop where
  word : splitWords (key ++ ":" ++ value) = [key ++ ":" ++ value]
  token : Token.ofWord (key ++ ":" ++ value) = .pair key value
  put : ∀ text cs c ps p, Statement.parseText (text ++ " ;") = [.ok (cs ++ [c])] →
    c.patterns = ps ++ [p] → p.role ≠ .bool → ∃ b, p.attributes.insert key value = .ok b ∧
      Statement.parseText (text ++ " " ++ (key ++ ":" ++ value) ++ " ;") =
        [.ok (cs ++ [{ c with patterns := ps ++ [{ p with attributes := b }] }])]
  nodes : ∀ s : Session,
    (s.execute ("MATCH n: x" ++ " " ++ (key ++ ":" ++ value) ++ " ;")).2.map Report.result =
      [.ok (.nodes (s.graph.nodes.filter (·.attributes.get? key = some value)))]
  edges : ∀ s : Session,
    (s.execute ("MATCH e: x" ++ " " ++ (key ++ ":" ++ value) ++ " ;")).2.map Report.result =
      [.ok (.edges (s.graph.edges.filter (·.attributes.get? key = some value)))]

section Sessions

variable {key value : String} {b : Attributes}

theorem Attributes.toList_of_insert_empty (inserted : (∅ : Attributes).insert key value = .ok b) :
    b.toList = [(key, value)] := by
  obtain ⟨_, _, rfl⟩ := (insert_eq_ok_iff ..).1 inserted
  rfl

theorem Attributes.includes_of_insert_empty (inserted : (∅ : Attributes).insert key value = .ok b)
    (a : Attributes) : a.includes b = decide (a.get? key = some value) := by
  rw [includes, toList_of_insert_empty inserted, List.all_cons, List.all_nil, Bool.and_true]

theorem Graph.Holds.storable {g : Graph} (h : g.Holds key value) :
    admissible key = true ∧ admissible value = true := by
  rcases h with ⟨n, _, found⟩ | ⟨e, _, found⟩
  · exact Attributes.admissible_of_get? found
  · exact Attributes.admissible_of_get? found

namespace Session

theorem execute_single {text : String} {c : Command} (read : Statement.parseText text = [.ok [c]])
    (s : Session) : s.execute text = ((s.runCommand c).1, [(s.runCommand c).2]) := by
  rw [execute, executeWords]
  change s.runStatements (Statement.parseText text) = _
  rw [read]
  rfl

section Written

variable {text : String} {k : Keyword} (role : Role)

/-- A text to which an attribute is written is carried out with the attribute in its one pattern. -/
theorem execute_put
    (read : Statement.parseText (text ++ " ;") = [.ok [{ keyword := k, patterns := [⟨role, "x", ∅⟩] }]])
    (other : role ≠ .bool) (inserted : (∅ : Attributes).insert key value = .ok b) (s : Session) :
    s.execute (text ++ " " ++ (key ++ ":" ++ value) ++ " ;") =
      ((s.runCommand { keyword := k, patterns := [⟨role, "x", b⟩] }).1,
        [(s.runCommand { keyword := k, patterns := [⟨role, "x", b⟩] }).2]) := by
  let c : Command := { keyword := k, patterns := [⟨role, "x", ∅⟩] }
  have first : Statement.parseText (text ++ " ;") = [.ok ([] ++ [c])] := read
  have last : c.patterns = [] ++ [⟨role, "x", ∅⟩] := rfl
  exact execute_single (Statement.parseText_put first last other inserted) s

theorem execute_match
    (read : Statement.parseText (text ++ " ;") =
      [.ok [{ keyword := .matching, patterns := [⟨role, "x", ∅⟩] }]])
    (other : role ≠ .bool) (inserted : (∅ : Attributes).insert key value = .ok b) (s : Session) :
    (s.execute (text ++ " " ++ (key ++ ":" ++ value) ++ " ;")).2.map Report.result =
      [.ok (if role = .node then .nodes (s.graph.nodes.filter (·.attributes.get? key = some value))
        else .edges (s.graph.edges.filter (·.attributes.get? key = some value)))] := by
  rw [execute_put role read other inserted, List.map_singleton]
  simp only [← Attributes.includes_of_insert_empty inserted]
  cases role with
  | node | edge => rfl
  | bool => exact absurd rfl other

end Written

theorem holds_created (inserted : (∅ : Attributes).insert key value = .ok b) :
    (feed ∅ (.text ("CREATE n: x" ++ " " ++ (key ++ ":" ++ value) ++ " ;"))).graph.Holds key value := by
  have read : Statement.parseText ("CREATE n: x" ++ " ;") =
      [.ok [{ keyword := .create, patterns := [⟨.node, "x", ∅⟩] }]] := by decide +kernel
  have nodes : ((∅ : Session).runCommand
      { keyword := .create, patterns := [⟨.node, "x", b⟩] }).1.graph.nodes = [⟨⟨1⟩, b⟩] := rfl
  have listed : (key, value) ∈ b.toList := by
    rw [Attributes.toList_of_insert_empty inserted]
    exact List.mem_singleton.2 rfl
  rw [feed, execute_put .node read (by decide) inserted]
  exact .inl ⟨⟨⟨1⟩, b⟩, nodes ▸ List.mem_singleton.2 rfl, (OrderedMap.find?_eq_some_iff ..).2 listed⟩

end Session

/-- What the store accepts can be given to a query and is given back. -/
theorem readBack_of_storable (hk : admissible key = true) (hv : admissible value = true) :
    ReadBack key value := by
  obtain ⟨b, inserted⟩ := ((∅ : Attributes).exists_insert_iff key value).2 ⟨hk, hv⟩
  have plainKey := ((Token.admissible_iff key).1 hk).1
  have plainValue := ((Token.admissible_iff value).1 hv).1
  refine ⟨splitWords_pair hk hv, Token.ofWord_of_plain plainKey plainValue,
    fun text cs c ps p accepted last role => ?_,
    Session.execute_match .node (by decide +kernel) (by decide) inserted,
    Session.execute_match .edge (by decide +kernel) (by decide) inserted⟩
  obtain ⟨b, inserted⟩ := (p.attributes.exists_insert_iff key value).2 ⟨hk, hv⟩
  exact ⟨b, inserted, Statement.parseText_put accepted last role inserted⟩

theorem ReadBack.blankFree (h : ReadBack key value) : BlankFree (key ++ ":" ++ value) := by
  apply plain_of_mem_splitWords (s := key ++ ":" ++ value)
  rw [h.word]
  exact List.mem_singleton.2 rfl

theorem ReadBack.storable (h : ReadBack key value) : admissible key = true ∧ admissible value = true := by
  have accepted := (Token.ofWord_eq_pair_iff_insert h.blankFree key value ∅).1 h.token
  exact (Attributes.exists_insert_iff ..).1 accepted.2

end Sessions

namespace Session

/-- A word without blanks is read as a pair exactly if the store accepts the pair, so a text never
fails for what the store says of an attribute; and the attributes that a session can come to hold, by
commands, imports, snapshots or directly, are those that a query can be given and gives back. -/
theorem pairs_agree :
    (∀ w, BlankFree w → ∀ key value (a : Attributes), Token.ofWord w = .pair key value ↔
      w = key ++ ":" ++ value ∧ ∃ b, a.insert key value = .ok b) ∧
    (∀ text, (∀ e, .error e ∈ Statement.parseText text → ¬(Error.parse e).OfInsert) ∧
      ∀ (s : Session), ∀ r ∈ (s.execute text).2, ∀ e, r.result = .error e → ¬e.OfInsert) ∧
    ∀ key value, (∃ s : Session, s.Attainable ∧ s.graph.Holds key value) ↔ ReadBack key value := by
  refine ⟨fun w free key value a => Token.ofWord_eq_pair_iff_insert free key value a,
    fun text => ⟨fun e failed => ?_, fun s r reported e failed => ?_⟩, fun key value => ⟨?_, fun h => ?_⟩⟩
  · exact Statement.parse_not_ofInsert (fun _ hw => plain_of_mem_splitWords hw) failed
  · exact s.execute_not_ofInsert reported failed
  · rintro ⟨s, _, holds⟩
    exact readBack_of_storable holds.storable.1 holds.storable.2
  · obtain ⟨b, inserted⟩ := ((∅ : Attributes).exists_insert_iff key value).2 h.storable
    exact ⟨_, .reached (.fed .empty (.text _)), holds_created inserted⟩

/-- A name that is a keyword is imported. It is written behind another value for its key and a
predicate, and takes the place of that value; with a second colon it would be no pair. -/
theorem pairs_agree_keyword :
    ∃ (s : Session) (e : ParseError) (b : Attributes),
      s.Attainable ∧ s.graph.Holds "id" "RETURN" ∧ BlankFree ("id" ++ ":" ++ "RETURN") ∧
      (∃ a, (∅ : Attributes).insert "id" "RETURN" = .ok a) ∧
      .error e ∈ Statement.parseText "CREATE n: x id:RETURN:b ;" ∧ ¬(Error.parse e).OfInsert ∧
      Statement.parseText ("MATCH n: x id:b y>2" ++ " " ++ ("id" ++ ":" ++ "RETURN") ++ " ;") =
        [.ok [{ keyword := .matching, patterns := [⟨.node, "x", b⟩]
                predicates := [.predicate ⟨"y", .greater, "2", "x"⟩] }]] ∧
      b.toList = [("id", "RETURN")] := by
  let s : Session := feed ∅ (.edges [.fields ["RETURN", "b"]])
  let c : Command := { keyword := .matching
                       patterns := [⟨.node, "x", (∅ : Attributes).put "id" "b" rfl rfl⟩]
                       predicates := [.predicate ⟨"y", .greater, "2", "x"⟩] }
  have attainable : s.Attainable := .reached (.fed .empty _)
  have holds : s.graph.Holds "id" "RETURN" :=
    .inl ⟨⟨⟨1⟩, (∅ : Attributes).put "id" "RETURN" rfl rfl⟩, by decide +kernel, rfl⟩
  have read : Statement.parseText ("MATCH n: x id:b y>2" ++ " ;") = [.ok [c]] := by decide +kernel
  have failed : .error (.unknownWord "id:RETURN:b" 4) ∈
      Statement.parseText "CREATE n: x id:RETURN:b ;" := by decide +kernel
  have back := (pairs_agree.2.2 "id" "RETURN").1 ⟨s, attainable, holds⟩
  obtain ⟨b, inserted, written⟩ := back.put _ [] c [] _ read rfl (by decide)
  obtain ⟨_, _, rfl⟩ := (Attributes.insert_eq_ok_iff ..).1 inserted
  have accepted := (pairs_agree.1 _ back.blankFree "id" "RETURN" ∅).1 back.token
  exact ⟨s, _, _, attainable, holds, back.blankFree, accepted.2, failed,
    (pairs_agree.2.1 _).1 _ failed, written, rfl⟩

end Session

end WordGraph
