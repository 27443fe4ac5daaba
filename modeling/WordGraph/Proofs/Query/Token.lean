import WordGraph.Attributes
import WordGraph.Query.Token

/-!
What the classes say of the words in them: only the semicolon ends a statement, and the two parts of
a pair are texts with no sign that separates words, so blanks alone can keep them from being stored.
Any two such texts are read as a pair from the word that has a colon between them.
-/

namespace WordGraph.Token

/-- Says that a text has characters, none of which separates words. -/
def Plain (s : String) : Prop := s.toList ≠ [] ∧ ∀ c ∈ s.toList, isReserved c = false

theorem Plain.ne_colon {s : String} (h : Plain s) : ∀ c ∈ s.toList, c ≠ ':' := by
  intro c hc same
  have reserved := h.2 c hc
  rw [same] at reserved
  exact absurd reserved (by decide)

theorem admissible_iff (s : String) :
    admissible s = true ↔ Plain s ∧ ∀ c ∈ s.toList, Text.isBlank c = false := by
  simp only [admissible, Plain, Bool.and_eq_true, Bool.not_eq_true', List.isEmpty_eq_false_iff,
    List.all_eq_true, forall_and, and_assoc, and_comm]

theorem admissible_iff_of_plain {s : String} (h : Plain s) :
    admissible s = true ↔ ∀ c ∈ s.toList, Text.isBlank c = false := by
  rw [admissible_iff, and_iff_right h]

theorem plain_ofList {cs : List Char} (some : cs.isEmpty = false) (free : cs.any isReserved = false) :
    Plain (String.ofList cs) := by
  rw [Plain, String.toList_ofList]
  refine ⟨List.isEmpty_eq_false_iff.1 some, fun c hc => ?_⟩
  rw [List.any_eq_false] at free
  simpa using free c hc

theorem toList_pair (key value : String) :
    (key ++ ":" ++ value).toList = key.toList ++ ':' :: value.toList := by
  rw [String.toList_append, String.toList_append, List.append_assoc]
  rfl

theorem pair?_eq_some {cs : List Char} {t : Token} (h : pair? cs = some t) :
    ∃ key value, t = .pair key value ∧ cs = (key ++ ":" ++ value).toList ∧ Plain key ∧ Plain value := by
  rw [pair?] at h
  split at h
  · rename_i sign value behind
    have colon : sign = ':' := by
      have stops := List.head?_dropWhile_not (· ≠ ':') cs
      rw [behind] at stops
      simpa using stops
    subst colon
    split at h
    · cases h
    · rename_i fine
      simp only [Bool.or_eq_true, not_or, Bool.not_eq_true] at fine
      obtain ⟨⟨⟨some, some'⟩, keyFree⟩, valueFree⟩ := fine
      cases h
      refine ⟨_, _, rfl, ?_, plain_ofList some keyFree, plain_ofList some' valueFree⟩
      rw [toList_pair, String.toList_ofList, String.toList_ofList, ← behind,
        List.takeWhile_append_dropWhile]
  · cases h

theorem predicate?_eq_some {cs : List Char} {t : Token} (h : predicate? cs = some t) :
    ∃ key comparison threshold, t = .predicate key comparison threshold := by
  rw [predicate?] at h
  split at h
  · split at h
    · cases h
    · obtain ⟨c, _, rfl⟩ := Option.map_eq_some_iff.1 h
      exact ⟨_, _, _, rfl⟩
  · cases h

theorem name?_eq_some {cs : List Char} {t : Token} (h : name? cs = some t) :
    t = .name (String.ofList cs) ∧ Plain (String.ofList cs) := by
  rw [name?] at h
  split at h
  · cases h
  · rename_i fine
    simp only [Bool.or_eq_true, not_or, Bool.not_eq_true] at fine
    exact ⟨(Option.some.inj h).symm, plain_ofList fine.1 fine.2⟩

/-- What a token says of the word that it is the class of. -/
def Describes (w : String) : Token → Prop
  | .terminator => w = ";"
  | .pair key value => w = key ++ ":" ++ value ∧ Plain key ∧ Plain value
  | .name v => v = w ∧ Plain w
  | .unknown v => v = w
  | .keyword _ | .marker _ | .predicate _ _ _ => True

theorem describes_ofWord (w : String) : (ofWord w).Describes w := by
  by_cases h : w = ";"
  · subst h
    rfl
  · simp only [ofWord, h, if_false]
    cases hk : Keyword.ofWord? w with
    | some k => trivial
    | none =>
        cases hm : markerRole? w with
        | some role => trivial
        | none =>
            cases hp : pair? w.toList with
            | some t =>
                obtain ⟨key, value, rfl, same, plain⟩ := pair?_eq_some hp
                exact ⟨String.toList_inj.1 same, plain⟩
            | none =>
                cases hc : predicate? w.toList with
                | some t =>
                    obtain ⟨key, comparison, threshold, rfl⟩ := predicate?_eq_some hc
                    trivial
                | none =>
                    cases hn : name? w.toList with
                    | some t =>
                        obtain ⟨rfl, plain⟩ := name?_eq_some hn
                        rw [String.ofList_toList] at plain ⊢
                        exact ⟨rfl, plain⟩
                    | none => rfl

theorem ofWord_eq_terminator_iff (w : String) : ofWord w = .terminator ↔ w = ";" := by
  constructor
  · intro h
    have described := describes_ofWord w
    rwa [h] at described
  · intro h
    subst h
    rfl

theorem plain_of_name {w v : String} (h : ofWord w = .name v) : v = w ∧ Plain w := by
  have described := describes_ofWord w
  rwa [h] at described

theorem eq_of_ofWord_unknown {w v : String} (h : ofWord w = .unknown v) : v = w := by
  have described := describes_ofWord w
  rwa [h] at described

section Writing

variable {w key value : String}

theorem ofWord_word (k : Keyword) : ofWord k.word = .keyword k := by
  have other : k.word ≠ ";" := by cases k <;> decide
  simp only [ofWord, other, if_false, Keyword.ofWord?_word]
  rfl

theorem ofWord?_eq_none_of_colon (colon : ':' ∈ w.toList) : Keyword.ofWord? w = none := by
  have folded : ':' ∈ Text.foldCase w := List.mem_map.2 ⟨':', colon, by decide⟩
  rw [Keyword.ofWord?, List.find?_eq_none]
  intro k _ same
  rw [← of_decide_eq_true same] at folded
  revert folded
  cases k <;> decide

theorem markerRole?_eq_none_of_length (long : 2 < w.toList.length) : markerRole? w = none := by
  rw [markerRole?, List.find?_eq_none]
  intro role _ same
  have short : (Text.foldCase role.marker).length = 2 := by cases role <;> decide
  rw [of_decide_eq_true same, Text.foldCase, List.length_map] at short
  omega

theorem Plain.any_eq_false {s : String} (h : Plain s) : s.toList.any isReserved = false := by
  rw [List.any_eq_false]
  intro c hc
  rw [h.2 c hc]
  exact Bool.false_ne_true

theorem ofWord_of_plain (k : Plain key) (v : Plain value) :
    ofWord (key ++ ":" ++ value) = .pair key value := by
  have long : 2 < (key ++ ":" ++ value).toList.length := by
    have := List.length_pos_iff.2 k.1
    have := List.length_pos_iff.2 v.1
    rw [toList_pair, List.length_append, List.length_cons]
    omega
  have other : key ++ ":" ++ value ≠ ";" := by
    intro same
    rw [same] at long
    exact absurd long (by decide)
  have noColon : ∀ c ∈ key.toList, decide (c ≠ ':') = true := fun c hc =>
    decide_eq_true (k.ne_colon c hc)
  have parts : pair? (key.toList ++ ':' :: value.toList) = some (.pair key value) := by
    rw [pair?, List.takeWhile_append_of_pos noColon, List.dropWhile_append_of_pos noColon]
    simp [List.isEmpty_eq_false_iff.2 k.1, List.isEmpty_eq_false_iff.2 v.1, k.any_eq_false,
      v.any_eq_false]
  have keyword : Keyword.ofWord? (key ++ ":" ++ value) = none :=
    ofWord?_eq_none_of_colon (toList_pair key value ▸ by simp)
  simp only [ofWord, other, if_false, keyword, markerRole?_eq_none_of_length long, toList_pair, parts]
  rfl

theorem ofWord_eq_pair_iff (w key value : String) :
    ofWord w = .pair key value ↔ w = key ++ ":" ++ value ∧ Plain key ∧ Plain value := by
  constructor
  · intro h
    have described := describes_ofWord w
    rwa [h] at described
  · intro ⟨same, k, v⟩
    rw [same, ofWord_of_plain k v]

end Writing

end WordGraph.Token
