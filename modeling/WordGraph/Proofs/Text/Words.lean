import Mathlib.Data.List.DropRight
import WordGraph.Query.Token

/-!
The words of texts that are trimmed or put together. Blanks at the ends of a text belong to no word,
and texts with a blank between them have their words one after another. A text whose last character
is a semicolon has the semicolon as its last word, whether or not it is glued to another word.
-/

namespace WordGraph

namespace Text

theorem words_nil : words [] = [] := by decide

theorem words_cons_blank {c : Char} (blank : isBlank c = true) (cs : List Char) :
    words (c :: cs) = words cs := by
  have := words_append_blank [] cs blank
  rwa [words_nil, List.nil_append, List.nil_append] at this

theorem words_concat_blank {c : Char} (blank : isBlank c = true) (cs : List Char) :
    words (cs ++ [c]) = words cs := by
  rw [words_append_blank cs [] blank, words_nil, List.append_nil]

theorem words_trimStart (cs : List Char) : words (trimStart cs) = words cs := by
  induction cs with
  | nil => rfl
  | cons c cs ih =>
      rw [trimStart, List.dropWhile_cons]
      split
      · rename_i blank
        rw [words_cons_blank blank]
        exact ih
      · rfl

theorem words_trimEnd (cs : List Char) : words (trimEnd cs) = words cs := by
  rw [trimEnd, ← List.rdropWhile]
  induction cs using List.reverseRecOn with
  | nil => rfl
  | append_singleton cs c ih =>
      rw [List.rdropWhile_concat]
      split
      · rename_i blank
        rw [ih, words_concat_blank blank]
      · rfl

theorem getLast?_trim {s : String} {c : Char} (last : (trim s).toList.getLast? = some c) :
    isBlank c = false := by
  rw [trim, String.toList_ofList, trimEnd, ← List.rdropWhile] at last
  obtain ⟨front, ends⟩ := List.getLast?_eq_some_iff.1 last
  have stops := List.rdropWhile_last_not isBlank (trimStart s.toList) (by rw [ends]; simp)
  simpa [ends] using stops

theorem words_trim (s : String) : words (trim s).toList = words s.toList := by
  rw [trim, String.toList_ofList, words_trimEnd, words_trimStart]

/-- A text without blanks is one word. -/
theorem words_of_plain {cs : List Char} (some : cs ≠ []) (plain : ∀ c ∈ cs, isBlank c = false) :
    words cs = [cs] := by
  rw [words, List.splitOnP_eq_singleton plain]
  simp [some]

/-- Says of a text that no word of it runs on into what is put behind it. -/
def Apart (cs : List Char) : Prop := ∀ c, cs.getLast? = some c → isBlank c = true

theorem words_append_of_apart {cs : List Char} (apart : Apart cs) (more : List Char) :
    words (cs ++ more) = words cs ++ words more := by
  rcases List.eq_nil_or_concat cs with rfl | ⟨front, b, rfl⟩
  · rw [words_nil, List.nil_append, List.nil_append]
  · rw [List.concat_eq_append] at apart ⊢
    have blank := apart b List.getLast?_concat
    rw [List.append_assoc, List.singleton_append, words_append_blank _ _ blank,
      words_concat_blank blank]

/-- Every text has a last word, empty or not, behind a text that stands apart from it. -/
theorem exists_last_word (cs : List Char) :
    ∃ head w, cs = head ++ w ∧ Apart head ∧ ∀ c ∈ w, isBlank c = false := by
  let inWord (x : Char) : Bool := !isBlank x
  have parts : cs.rdropWhile inWord ++ cs.rtakeWhile inWord = cs := List.rdropWhile_append_rtakeWhile ..
  refine ⟨cs.rdropWhile inWord, cs.rtakeWhile inWord, parts.symm, fun b last => ?_, fun c hc => ?_⟩
  · obtain ⟨front, ends⟩ := List.getLast?_eq_some_iff.1 last
    have stops := List.rdropWhile_last_not inWord cs (by rw [ends]; simp)
    simpa [ends, inWord] using stops
  · have := List.mem_rtakeWhile_imp hc
    simpa [inWord] using this

/-- A character that is not blank ends the last word of the text that it ends. -/
theorem words_concat {c : Char} (plain : isBlank c = false) (cs : List Char) :
    ∃ before w, words (cs ++ [c]) = before ++ [w ++ [c]] := by
  obtain ⟨head, w, rfl, apart, inside⟩ := exists_last_word cs
  have last : ∀ x ∈ w ++ [c], isBlank x = false :=
    List.forall_mem_append.2 ⟨inside, List.forall_mem_singleton.2 plain⟩
  rw [List.append_assoc, words_append_of_apart apart, words_of_plain (by simp) last]
  exact ⟨words head, w, rfl⟩

/-- No word has a blank in it. -/
theorem plain_of_mem_words {cs w : List Char} (h : w ∈ words cs) : ∀ c ∈ w, isBlank c = false := by
  have parts : ∀ w ∈ cs.splitOnP isBlank, ∀ c ∈ w, isBlank c = false := by
    clear h
    induction cs with
    | nil => simp
    | cons c cs ih =>
        rw [List.splitOnP_cons_eq_if_modifyHead]
        split
        · exact List.forall_mem_cons.2 ⟨List.forall_mem_nil _, ih⟩
        · rename_i plain
          generalize cs.splitOnP isBlank = parts at ih
          cases parts with
          | nil => exact List.forall_mem_nil _
          | cons first more =>
              obtain ⟨here, later⟩ := List.forall_mem_cons.1 ih
              exact List.forall_mem_cons.2
                ⟨List.forall_mem_cons.2 ⟨Bool.not_eq_true _ ▸ plain, here⟩, later⟩
  exact parts w (List.mem_filter.1 h).1

end Text

theorem detachTerminator_of_open {w : List Char} (stays : w.getLast? ≠ some ';') :
    detachTerminator w = [String.ofList w] := by
  rw [detachTerminator.eq_def]
  split
  · rename_i ends
    exact absurd ends stays
  · rfl

theorem detachTerminator_concat {w : List Char} (some : w ≠ []) :
    detachTerminator (w ++ [';']) = [String.ofList w, ";"] := by
  rw [detachTerminator, List.getLast?_concat, List.dropLast_concat]
  simp [some]

theorem flatMap_detachTerminator {w : List Char} (some : w ≠ [])
    (plain : ∀ c ∈ w, Text.isBlank c = false) :
    (Text.words w).flatMap detachTerminator = detachTerminator w := by
  rw [Text.words_of_plain some plain, List.flatMap_singleton]

/-- A text without blanks is one word, unless a semicolon is to be split off its end. -/
theorem splitWords_of_plain {s : String} (some : s.toList ≠ [])
    (plain : ∀ c ∈ s.toList, Text.isBlank c = false) (stays : s.toList.getLast? ≠ .some ';') :
    splitWords s = [s] := by
  rw [splitWords, flatMap_detachTerminator some plain, detachTerminator_of_open stays,
    String.ofList_toList]

theorem plain_of_mem_splitWords {s w : String} (h : w ∈ splitWords s) :
    ∀ c ∈ w.toList, Text.isBlank c = false := by
  obtain ⟨cs, mem, part⟩ := List.mem_flatMap.1 h
  have plain := Text.plain_of_mem_words mem
  rw [detachTerminator.eq_def] at part
  split at part
  · split at part
    · rw [List.mem_singleton.1 part, String.toList_ofList]
      exact plain
    · rcases List.mem_pair.1 part with rfl | rfl
      · rw [String.toList_ofList]
        exact fun c hc => plain c (List.dropLast_subset _ hc)
      · intro c hc
        obtain rfl : c = ';' := List.mem_singleton.1 hc
        decide
  · rw [List.mem_singleton.1 part, String.toList_ofList]
    exact plain

theorem splitWords_trim (s : String) : splitWords (Text.trim s) = splitWords s := by
  rw [splitWords, Text.words_trim, splitWords]

theorem splitWords_append_blank (s t : String) {sep : String} {c : Char} (single : sep.toList = [c])
    (blank : Text.isBlank c = true) : splitWords (s ++ sep ++ t) = splitWords s ++ splitWords t := by
  rw [splitWords, String.toList_append, String.toList_append, single, List.append_assoc,
    List.singleton_append, Text.words_append_blank _ _ blank, List.flatMap_append]
  rfl

theorem splitWords_terminated (s : String) : splitWords (s ++ " ;") = splitWords s ++ [";"] := by
  have parts : s ++ " ;" = s ++ " " ++ ";" := by
    rw [String.append_assoc]
    rfl
  rw [parts, splitWords_append_blank _ _ rfl (by decide)]
  rfl

theorem splitWords_intercalate (texts : List String) {sep : String} {c : Char}
    (single : sep.toList = [c]) (blank : Text.isBlank c = true) :
    splitWords (sep.intercalate texts) = texts.flatMap splitWords := by
  induction texts with
  | nil => rfl
  | cons t texts ih =>
      cases texts with
      | nil => rw [String.intercalate_singleton, List.flatMap_cons, List.flatMap_nil, List.append_nil]
      | cons u texts =>
          rw [String.intercalate_cons_cons, splitWords_append_blank _ _ single blank, ih]
          exact (List.flatMap_cons ..).symm

/-- The last part of a word that `c` ends. -/
theorem getLast?_detachTerminator (w : List Char) (c : Char) :
    (detachTerminator (w ++ [c])).getLast? =
      some (if c = ';' then ";" else String.ofList (w ++ [c])) := by
  split
  · rename_i semicolon
    subst semicolon
    cases w with
    | nil => decide
    | cons x w => rw [detachTerminator_concat (List.cons_ne_nil x w)]; rfl
  · rename_i other
    rw [detachTerminator_of_open (by simpa using other), List.getLast?_singleton]

/-- The buffer looks at the last character and the parser at the last word; they agree on texts that do
not end in a blank. -/
theorem getLast?_splitWords_iff {s : String}
    (plain : ∀ c, s.toList.getLast? = some c → Text.isBlank c = false) :
    (splitWords s).getLast? = some ";" ↔ s.toList.getLast? = some ';' := by
  rw [splitWords]
  rcases List.eq_nil_or_concat s.toList with empty | ⟨cs, c, same⟩
  · simp [empty, Text.words_nil]
  · rw [List.concat_eq_append] at same
    rw [same, List.getLast?_concat] at plain ⊢
    obtain ⟨before, w, words⟩ := Text.words_concat (plain c rfl) cs
    rw [words, List.flatMap_append, List.flatMap_singleton, List.getLast?_append,
      getLast?_detachTerminator, Option.some_or, Option.some.injEq, Option.some.injEq]
    refine ⟨fun last => ?_, fun semicolon => if_pos semicolon⟩
    by_contra other
    rw [if_neg other, ← String.toList_inj, String.toList_ofList] at last
    have same : w ++ [c] = [] ++ [';'] := last
    exact other (List.singleton_inj.1 (List.append_inj' same rfl).2)

theorem getLast?_splitWords {s : String} (ends : s.toList.getLast? = some ';') :
    (splitWords s).getLast? = some ";" := by
  refine (getLast?_splitWords_iff fun c last => ?_).2 ends
  obtain rfl := Option.some.inj (ends.symm.trans last)
  decide

end WordGraph
