import WordGraph.Proofs.Query.Acceptance
import WordGraph.Proofs.Query.Locating
import WordGraph.Proofs.Text.Words
import WordGraph.Query.Group

/-!
Commands that are written out and read again. The text of a command without predicates is split into
the words of a derivation, and the derivation means the command if its names are read as names and
its flag is the one that its boolean patterns give. So the parser gives such a command back, and every
command without predicates that it has made of any text is such a command.
-/

namespace WordGraph

open Grammar

/-- The truth value that a boolean pattern gives. -/
def Pattern.truth? (p : Pattern) : Option Bool :=
  if p.role = .bool then (p.attributes.get? boolKey).map (· = "1") else none

/-- Says that a pattern has a name that is read as a name, and nothing but a truth value if it is a
boolean pattern. -/
structure Pattern.Writable (p : Pattern) : Prop where
  blankFree : BlankFree p.identifier
  named : Token.ofWord p.identifier = .name p.identifier
  truth : p.role = .bool → ∀ e ∈ p.attributes.toList, e = (boolKey, "0") ∨ e = (boolKey, "1")

-- The characters are gone through one by one; `BlankFree` quantifies over all that there are.
instance (p : Pattern) : Decidable p.Writable :=
  decidable_of_iff ((p.identifier.toList.all fun c => !Text.isBlank c) = true ∧
      Token.ofWord p.identifier = .name p.identifier ∧
      (p.role = .bool → ∀ e ∈ p.attributes.toList, e = (boolKey, "0") ∨ e = (boolKey, "1")))
    ⟨fun ⟨free, named, truth⟩ => ⟨by simpa [BlankFree] using free, named, truth⟩,
      fun h => ⟨by simpa [BlankFree] using h.blankFree, h.named, h.truth⟩⟩

/-- Says that a command has no predicates, and no other flag than the last that a pattern gives. -/
structure Command.Writable (c : Command) : Prop where
  predicates : c.predicates = []
  patterns : ∀ p ∈ c.patterns, p.Writable
  flag : c.flag = (c.patterns.filterMap Pattern.truth?).getLast?

instance (c : Command) : Decidable c.Writable :=
  decidable_of_iff (c.predicates = [] ∧ (∀ p ∈ c.patterns, p.Writable) ∧
      c.flag = (c.patterns.filterMap Pattern.truth?).getLast?)
    ⟨fun ⟨bare, patterns, flag⟩ => ⟨bare, patterns, flag⟩, fun h => ⟨h.predicates, h.patterns, h.flag⟩⟩

section Words

/-- The words that a pattern is written with. -/
def Pattern.words (p : Pattern) : List String :=
  p.role.marker :: p.identifier :: p.attributes.toList.map fun e => e.1 ++ ":" ++ e.2

def Command.words (c : Command) : List String := c.keyword.word :: c.patterns.flatMap Pattern.words

theorem Token.Plain.open_end {s : String} (h : Plain s) : s.toList.getLast? ≠ some ';' := by
  intro ends
  exact absurd (h.2 ';' (List.mem_of_getLast? ends)) (by decide)

theorem splitWords_pair {key value : String} (k : admissible key = true)
    (v : admissible value = true) : splitWords (key ++ ":" ++ value) = [key ++ ":" ++ value] := by
  obtain ⟨keyPlain, keyFree⟩ := (Token.admissible_iff key).1 k
  obtain ⟨valuePlain, valueFree⟩ := (Token.admissible_iff value).1 v
  apply splitWords_of_plain <;> rw [Token.toList_pair]
  · simp
  · intro c hc
    rcases List.mem_append.1 hc with hc | hc
    · exact keyFree c hc
    · rcases List.mem_cons.1 hc with rfl | hc
      · decide
      · exact valueFree c hc
  -- The word ends as its value does, so no semicolon is split off it.
  · have last : (key.toList ++ ':' :: value.toList).getLast? = value.toList.getLast? := by
      rw [List.append_cons, List.getLast?_append_of_ne_nil _ valuePlain.1]
    rw [last]
    exact valuePlain.open_end

variable {p : Pattern} {c : Command}

theorem Pattern.Writable.splitWords_text (h : p.Writable) : splitWords p.text = p.words := by
  have marker : splitWords p.role.marker = [p.role.marker] := by
    cases p.role <;> decide +kernel
  have plain := (Token.plain_of_name h.named).2
  have name := splitWords_of_plain plain.1 h.blankFree plain.open_end
  have pairs : ∀ w ∈ p.attributes.toList.map fun e => e.1 ++ ":" ++ e.2, splitWords w = [w] := by
    intro w hw
    obtain ⟨e, he, rfl⟩ := List.mem_map.1 hw
    obtain ⟨k, v⟩ := p.attributes.admissible_entries e he
    exact splitWords_pair k v
  have each : ∀ w ∈ p.words, splitWords w = [w] :=
    List.forall_mem_cons.2 ⟨marker, List.forall_mem_cons.2 ⟨name, pairs⟩⟩
  calc splitWords p.text = p.words.flatMap splitWords := splitWords_intercalate p.words rfl (by decide)
    _ = p.words.flatMap fun w => [w] := List.flatMap_congr each
    _ = p.words := List.flatMap_singleton' _

theorem Command.groups_of_no_predicates (h : c.predicates = []) : c.groups = [] := by
  simp [groups, h, PredicateGroup.collect]

theorem Command.Writable.splitWords_text (h : c.Writable) : splitWords c.text = c.words := by
  have keyword : splitWords c.keyword.word = [c.keyword.word] := by
    cases c.keyword <;> decide +kernel
  rw [text, groups_of_no_predicates h.predicates, List.map_nil, List.append_nil,
    splitWords_intercalate _ rfl (by decide), List.flatMap_cons, keyword, List.flatMap_map]
  exact congrArg _ (List.flatMap_congr fun p hp => (h.patterns p hp).splitWords_text)

end Words

namespace Grammar

section Trees

/-- The derivation that a pattern is written as. -/
def PatternTree.ofPattern (p : Pattern) : PatternTree :=
  ⟨p.role, p.identifier, p.attributes.toList.map fun e => .pair e.1 e.2⟩

def CommandTree.ofCommand (c : Command) : CommandTree := ⟨c.keyword, c.patterns.map PatternTree.ofPattern⟩

theorem PatternTree.pairs_ofPattern (p : Pattern) : (ofPattern p).pairs = p.attributes.toList := by
  rw [pairs, ofPattern, List.flatMap_map]
  exact List.flatMap_singleton' _

theorem gather_toList (a : Attributes) : gather a.toList = a := by
  apply Attributes.ext_table
  exact (gather_table a.admissible_entries).trans a.table.ofList_entries

theorem PatternTree.predicates_ofPattern (p : Pattern) : (ofPattern p).predicates = [] := by
  rw [predicates, List.flatMap_eq_nil_iff]
  intro i hi
  obtain ⟨e, _, rfl⟩ := List.mem_map.1 hi
  rfl

theorem PatternTree.pattern_ofPattern (p : Pattern) : (ofPattern p).pattern = p := by
  rw [pattern, pairs_ofPattern, gather_toList]
  rfl

variable {p : Pattern} {c : Command}

theorem PatternTree.valid_ofPattern (h : p.Writable) : (ofPattern p).Valid := by
  intro i hi
  obtain ⟨e, he, rfl⟩ := List.mem_map.1 hi
  obtain ⟨k, v⟩ := p.attributes.admissible_entries e he
  refine ⟨((Token.admissible_iff _).1 k).2, ((Token.admissible_iff _).1 v).2, fun bool => ?_⟩
  rcases h.truth bool e he with rfl | rfl
  · exact ⟨rfl, .inl rfl⟩
  · exact ⟨rfl, .inr rfl⟩

theorem PatternTree.tokens_ofPattern (h : p.Writable) :
    p.words.map Token.ofWord = (ofPattern p).tokens := by
  have marker : Token.ofWord p.role.marker = .marker p.role := by
    cases p.role <;> decide +kernel
  have pair : ∀ e ∈ p.attributes.toList, Token.ofWord (e.1 ++ ":" ++ e.2) = .pair e.1 e.2 := by
    intro e he
    obtain ⟨k, v⟩ := p.attributes.admissible_entries e he
    exact Token.ofWord_of_plain ((Token.admissible_iff _).1 k).1 ((Token.admissible_iff _).1 v).1
  have pairs : (p.attributes.toList.map fun e => e.1 ++ ":" ++ e.2).map Token.ofWord =
      (ofPattern p).items.flatMap Item.tokens := by
    rw [List.map_map, ofPattern, List.flatMap_map]
    exact (List.map_congr_left pair).trans List.map_eq_flatMap
  rw [Pattern.words, List.map_cons, List.map_cons, marker, h.named, pairs]
  rfl

theorem CommandTree.derives_ofCommand (h : c.Writable) : Derives [ofCommand c] c.words where
  wellFormed := by
    refine ⟨?_, nofun, nofun⟩
    intro t ht q hq
    obtain rfl := List.mem_singleton.1 ht
    obtain ⟨p, hp, rfl⟩ := List.mem_map.1 hq
    exact PatternTree.valid_ofPattern (h.patterns p hp)
  tokens_eq := by
    have patterns : (c.patterns.flatMap Pattern.words).map Token.ofWord =
        (ofCommand c).patterns.flatMap PatternTree.tokens := by
      rw [List.map_flatMap, ofCommand, List.flatMap_map]
      exact List.flatMap_congr fun p hp => PatternTree.tokens_ofPattern (h.patterns p hp)
    rw [Command.words, List.map_cons, Token.ofWord_word, patterns, List.flatMap_singleton]
    rfl

/-- The last truth value of a boolean pattern is the one that is stored. -/
theorem PatternTree.getLast?_flags {t : PatternTree} (stored : Storable t.pairs) (valid : t.Valid) :
    t.flags.getLast? = t.pattern.truth? := by
  rw [flags, Pattern.truth?, pattern]
  split
  · rename_i bool
    have keys : ∀ e ∈ t.pairs, decide (e.1 = boolKey) = true := fun e he =>
      decide_eq_true ((valid.permitted he).2.2 bool).1
    rw [Attributes.get?, gather_table stored, OrderedMap.find?_ofList, List.filter_eq_self.2 keys,
      List.getLast?_map, Option.map_map]
    rfl
  · rfl

/-- A command shows which of its patterns give a truth value, and its flag is the last of these. -/
theorem CommandTree.flag_command {t : CommandTree} (stored : ∀ p ∈ t.patterns, Storable p.pairs)
    (valid : t.Valid) : t.command.flag = (t.command.patterns.filterMap Pattern.truth?).getLast? := by
  have each : t.patterns.map (fun p => p.flags.getLast?) = t.patterns.map fun p => p.pattern.truth? :=
    List.map_congr_left fun p hp => PatternTree.getLast?_flags (stored p hp) (valid p hp)
  calc (t.patterns.flatMap PatternTree.flags).getLast?
      = (t.patterns.map fun p => p.flags.getLast?).reverse.findSome? id := by
        rw [List.getLast?_flatMap, ← List.map_reverse, List.findSome?_map]
        rfl
    _ = (t.patterns.map fun p => p.pattern.truth?).reverse.findSome? id := by rw [each]
    _ = (t.command.patterns.filterMap Pattern.truth?).getLast? := by
        rw [command, List.filterMap_map, List.getLast?_filterMap, ← List.map_reverse, List.findSome?_map]
        rfl

theorem CommandTree.command_ofCommand (h : c.Writable) : (ofCommand c).command = c := by
  have derived := derives_ofCommand h
  have listed : ofCommand c ∈ [ofCommand c] := List.mem_singleton.2 rfl
  have patterns : (ofCommand c).command.patterns = c.patterns := by
    rw [command, ofCommand, List.map_map]
    exact (List.map_congr_left fun p _ => PatternTree.pattern_ofPattern p).trans (List.map_id _)
  have predicates : (ofCommand c).command.predicates = [] := by
    rw [command, ofCommand, List.flatMap_map, List.flatMap_eq_nil_iff]
    exact fun p _ => PatternTree.predicates_ofPattern p
  have flag := flag_command (fun p hp => derived.storable listed hp) (derived.wellFormed.valid _ listed)
  rw [patterns, ← h.flag] at flag
  rw [← h.predicates] at predicates
  obtain ⟨keyword, ps, items, value⟩ := c
  exact congr (congr (congrArg (Command.mk keyword) patterns) predicates) flag

end Trees

section Reading

variable {trees : List CommandTree} {ws : List String} {t : CommandTree} {p : PatternTree}

theorem CommandTree.terminator_not_mem (t : CommandTree) : Token.terminator ∉ t.tokens := by
  have items (i : Item) : Token.terminator ∉ i.tokens := by
    cases i <;> simp [Item.tokens, Clause.token]
  simp [tokens, PatternTree.tokens, items]

theorem Derives.terminator_not_mem (h : Derives trees ws) : ";" ∉ ws := by
  intro mem
  have spelled : Token.terminator ∈ trees.flatMap CommandTree.tokens :=
    h.tokens_eq ▸ List.mem_map.2 ⟨";", mem, (Token.ofWord_eq_terminator_iff _).2 rfl⟩
  obtain ⟨t, _, inside⟩ := List.mem_flatMap.1 spelled
  exact t.terminator_not_mem inside

/-- What words without blanks are read as can be written out again. -/
theorem Derives.writable_pattern (h : Derives trees ws) (free : ∀ w ∈ ws, BlankFree w) (ht : t ∈ trees)
    (hp : p ∈ t.patterns) : p.pattern.Writable := by
  have named : Token.name p.name ∈ p.tokens := List.mem_cons_of_mem _ (List.mem_cons_self ..)
  obtain ⟨w, hw, class_eq⟩ := h.exists_word ht hp named
  obtain ⟨rfl, _⟩ := Token.plain_of_name class_eq
  refine ⟨free _ hw, class_eq, fun bool e he => ?_⟩
  have written : e ∈ p.pairs := by
    apply OrderedMap.mem_of_mem_ofList
    rw [← gather_table (h.storable ht hp)]
    exact he
  have valid : p.Valid := h.wellFormed.valid t ht p hp
  obtain ⟨key, value⟩ := (valid.permitted written).2.2 bool
  exact value.imp (Prod.ext key) (Prod.ext key)

theorem Derives.writable (h : Derives trees ws) (free : ∀ w ∈ ws, BlankFree w) (ht : t ∈ trees)
    (bare : t.command.predicates = []) : t.command.Writable where
  predicates := bare
  patterns := List.forall_mem_map.2 fun _ hp => h.writable_pattern free ht hp
  flag := CommandTree.flag_command (fun _ hp => h.storable ht hp) (h.wellFormed.valid t ht)

end Reading
end Grammar

namespace Statement

theorem exists_derives {ws : List String} {cs : List Command} (accepted : .ok cs ∈ parse ws) :
    ∃ trees body, Derives trees body ∧ cs = trees.map CommandTree.command ∧ body ⊆ ws := by
  obtain ⟨i, found⟩ := List.mem_iff_getElem?.1 accepted
  obtain ⟨before, body, after, stands, count⟩ | unfinished := stands_of_parse found
  · have read := stands.parse_eq
    rw [count, found] at read
    obtain ⟨trees, derived, same⟩ := (read_concat_iff stands.plain _ cs).1 (Option.some.inj read).symm
    refine ⟨trees, body, derived, same, ?_⟩
    rw [stands.words_eq]
    exact List.Subset.trans (List.subset_append_left ..) (List.subset_append_right ..)
  · cases unfinished

theorem writable_of_parseText {text : String} {cs : List Command} (accepted : .ok cs ∈ parseText text)
    {c : Command} (hc : c ∈ cs) (bare : c.predicates = []) : c.Writable := by
  obtain ⟨trees, body, derived, rfl, inside⟩ := exists_derives accepted
  obtain ⟨t, ht, rfl⟩ := List.mem_map.1 hc
  exact derived.writable (fun w hw => plain_of_mem_splitWords (inside hw)) ht bare

theorem parseText_of_writable {c : Command} (h : c.Writable) :
    parseText (c.text ++ " ;") = [.ok [c]] := by
  have derived := CommandTree.derives_ofCommand h
  have plain := derived.terminator_not_mem
  have read : read 0 (c.words ++ [";"]) = .ok [c] :=
    (read_concat_iff plain 0 [c]).2 ⟨_, derived, by rw [List.map_singleton, CommandTree.command_ofCommand h]⟩
  rw [parseText, splitWords_terminated, h.splitWords_text, parse_single plain, read]

/-- A command without predicates is given back when its text is read, if its names are read as names
and its flag is the one that its patterns give. So is every command without predicates that was itself
read, whatever the text was. -/
theorem parseText_text :
    (∀ c : Command, c.Writable → parseText (c.text ++ " ;") = [.ok [c]]) ∧
    ∀ text cs, .ok cs ∈ parseText text → ∀ c ∈ cs, c.predicates = [] →
      parseText (c.text ++ " ;") = [.ok [c]] :=
  ⟨fun _ h => parseText_of_writable h, fun _ _ accepted _ hc bare =>
    parseText_of_writable (writable_of_parseText accepted hc bare)⟩

/-- A command that was not read, and one that was read with two values for one key, two truth values
and a RETURN behind it. -/
theorem parseText_text_flagged :
    (∃ c : Command, c.text = "MODIFYEDGE e: and 权:5 e: 边 b: x val:0 b: y" ∧
      parseText (c.text ++ " ;") = [.ok [c]]) ∧
    ∃ c d : Command, .ok [c, d] ∈
        parseText "modifynode N: a k:1 k:2 n: b B: f val:0 b: g val:1 RETURN n: a;" ∧
      c.text = "MODIFYNODE n: a k:2 n: b b: f val:0 b: g val:1" ∧
      parseText (c.text ++ " ;") = [.ok [c]] := by
  constructor
  · let c : Command := { keyword := .modifyEdge
                         patterns := [⟨.edge, "and", (∅ : Attributes).put "权" "5" rfl rfl⟩,
                           ⟨.edge, "边", ∅⟩, ⟨.bool, "x", (∅ : Attributes).put "val" "0" rfl rfl⟩,
                           ⟨.bool, "y", ∅⟩]
                         flag := some false }
    exact ⟨c, by decide +kernel, parseText_text.1 c (by decide +kernel)⟩
  · let c : Command := { keyword := .modifyNode
                         patterns := [⟨.node, "a", (∅ : Attributes).put "k" "2" rfl rfl⟩,
                           ⟨.node, "b", ∅⟩, ⟨.bool, "f", (∅ : Attributes).put "val" "0" rfl rfl⟩,
                           ⟨.bool, "g", (∅ : Attributes).put "val" "1" rfl rfl⟩]
                         flag := some true }
    let d : Command := { keyword := .returning, patterns := [⟨.node, "a", ∅⟩] }
    have accepted : .ok [c, d] ∈
        parseText "modifynode N: a k:1 k:2 n: b B: f val:0 b: g val:1 RETURN n: a;" := by
      decide +kernel
    exact ⟨c, d, accepted, by decide +kernel,
      parseText_text.2 _ _ accepted c (List.mem_cons_self ..) rfl⟩

end Statement
end WordGraph
