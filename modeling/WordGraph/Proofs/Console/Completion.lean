import WordGraph.Console.Complete
import WordGraph.Proofs.Text.Words

/-!
Completion with the cursor between two characters. The word before the cursor is taken to start one
byte behind the first byte of the last blank. Behind a blank of one byte that is the longest row of
characters without a blank, and all that is offered begins like it; behind a wider blank the start is
inside a character, and there is no answer.
-/

namespace WordGraph

namespace Text.Utf8

theorem length_append (xs ys : List Char) : length (xs ++ ys) = length xs + length ys := by
  induction xs with
  | nil => exact (Nat.zero_add _).symm
  | cons c xs ih => rw [List.cons_append, length, length, ih, Nat.add_assoc]

theorem length_toList (s : String) : length s.toList = s.utf8ByteSize := by
  induction s using String.push_induction with
  | empty => rfl
  | push s c ih =>
      rw [String.toList_push, length_append, ih, String.utf8ByteSize_push]
      rfl

end Text.Utf8

namespace Complete

open Text.Utf8 (length length_append length_toList)

section Positions

theorem splitAtByte?_cons {n : Nat} (some : 0 < n) (c : Char) (cs : List Char) :
    splitAtByte? n (c :: cs) =
      if n < c.utf8Size then none
      else (splitAtByte? (n - c.utf8Size) cs).map fun r => (c :: r.1, r.2) := by
  cases n with
  | zero => cases some
  | succ n => rfl

theorem splitAtByte?_cons_add (c : Char) (n : Nat) (cs : List Char) :
    splitAtByte? (c.utf8Size + n) (c :: cs) =
      (splitAtByte? n cs).map fun r => (c :: r.1, r.2) := by
  have size := c.utf8Size_pos
  rw [splitAtByte?_cons (by omega), if_neg (by omega), Nat.add_sub_cancel_left]

theorem splitAtByte?_append (xs ys : List Char) :
    splitAtByte? (length xs) (xs ++ ys) = some (xs, ys) := by
  induction xs with
  | nil => rw [length, List.nil_append, splitAtByte?]
  | cons c xs ih => rw [List.cons_append, length, splitAtByte?_cons_add, ih]; rfl

/-- No text ends inside a character. -/
theorem splitAtByte?_inside {n : Nat} {c : Char} (some : 0 < n) (inside : n < c.utf8Size)
    (xs ys : List Char) : splitAtByte? (length xs + n) (xs ++ c :: ys) = none := by
  induction xs with
  | nil => rw [length, Nat.zero_add, List.nil_append, splitAtByte?_cons some, if_pos inside]
  | cons x xs ih =>
      rw [List.cons_append, length, Nat.add_assoc, splitAtByte?_cons_add, ih]
      rfl

end Positions

section Starts

variable {word : List Char} (plain : ∀ c ∈ word, Text.isBlank c = false)
include plain

theorem wordStart_plain : wordStart word = 0 := by
  have all : word.reverse.dropWhile (fun c => !Text.isBlank c) = [] := by
    rw [List.dropWhile_eq_nil_iff]
    intro c hc
    simpa using plain c (List.mem_reverse.1 hc)
  simp only [wordStart, all, List.reverse_nil, List.getLast?_nil]

theorem wordStart_blank (front : List Char) {b : Char} (blank : Text.isBlank b = true) :
    wordStart (front ++ b :: word) = length front + 1 := by
  have upToBlank : ((front ++ b :: word).reverse.dropWhile fun c => !Text.isBlank c).reverse =
      front ++ [b] := by
    have skipped : ∀ c ∈ word.reverse, (!Text.isBlank c) = true := by
      intro c hc
      simpa using plain c (List.mem_reverse.1 hc)
    rw [List.reverse_append, List.reverse_cons, List.append_assoc,
      List.dropWhile_append_of_pos skipped, List.singleton_append,
      List.dropWhile_cons_of_neg (by simp [blank]), List.reverse_cons, List.reverse_reverse]
  simp only [wordStart, upToBlank, List.getLast?_concat, length_append, length]
  omega

end Starts

/-- Says of a text that it begins like a word if the case of the letters does not count. -/
def BeginsLike (text : String) (word : List Char) : Prop :=
  ∃ front, front <+: text.toList ∧ front.flatMap upper = word.flatMap upper

section Candidates

theorem beginsLike_of_startsWith {text : String} {word : List Char}
    (starts : startsWith text.toList word = true) : BeginsLike text word :=
  ⟨word, List.isPrefixOf_iff_prefix.1 starts, rfl⟩

theorem upper_of_mem_keywords {text : String} (known : text ∈ keywords) {c : Char}
    (hc : c ∈ text.toList) : upper c = [c] := by
  have upperCase : (keywords.all fun text => text.toList.all fun c => upper c = [c]) = true := by
    decide +kernel
  exact of_decide_eq_true (List.all_eq_true.1 (List.all_eq_true.1 upperCase text known) c hc)

theorem beginsLike_of_keyword {text : String} {word : List Char} (known : text ∈ keywords)
    (starts : startsWith text.toList (word.flatMap upper) = true) : BeginsLike text word := by
  have front := List.isPrefixOf_iff_prefix.1 starts
  refine ⟨word.flatMap upper, front, ?_⟩
  calc (word.flatMap upper).flatMap upper
    _ = (word.flatMap upper).flatMap fun c => [c] :=
        List.flatMap_congr fun c hc => upper_of_mem_keywords known (front.subset hc)
    _ = word.flatMap upper := List.flatMap_singleton' _

theorem beginsLike_of_mem_candidates {atStart : Bool} {word : List Char} {text : String}
    (found : text ∈ candidates atStart word) : BeginsLike text word := by
  simp only [candidates] at found
  split at found
  · exact beginsLike_of_startsWith (List.mem_filter.1 found).2
  · rcases List.mem_append.1 found with keyword | marker
    · exact beginsLike_of_keyword (List.mem_filter.1 keyword).1 (List.mem_filter.1 keyword).2
    · have longer := (List.mem_filter.1 marker).2
      rw [Bool.and_eq_true] at longer
      exact beginsLike_of_startsWith longer.1

end Candidates

/-- What completion is to answer if `head` and behind it `word` stand before the cursor. -/
structure Completes (head word : String) (answer : Nat × List String) : Prop where
  start_eq : answer.1 = head.utf8ByteSize
  plain : ∀ c ∈ word.toList, Text.isBlank c = false
  longest : ∀ tail, tail <:+ (head ++ word).toList → (∀ c ∈ tail, Text.isBlank c = false) →
    tail <:+ word.toList
  none_of_empty : word = "" → answer.2 = []
  begins : ∀ text ∈ answer.2, BeginsLike text word.toList

/-- Says that the last blank of a text, if there is one, takes a single byte. -/
def NarrowBlank (before : String) : Prop :=
  ∀ b, (before.toList.filter Text.isBlank).getLast? = some b → b.utf8Size = 1

section Answers

variable {head word : List Char}

/-- A text without blanks at the end of another one is part of what stands behind the last blank. -/
theorem suffix_of_plain (apart : Text.Apart head) {tail : List Char} (ends : tail <:+ head ++ word)
    (plain : ∀ c ∈ tail, Text.isBlank c = false) : tail <:+ word := by
  rcases List.suffix_or_suffix_of_suffix ends (List.suffix_append head word) with short | long
  · exact short
  · obtain ⟨more, rfl⟩ := long
    obtain ⟨front, same⟩ := ends
    rw [← List.append_assoc] at same
    have same := List.append_cancel_right same
    rcases List.eq_nil_or_concat' more with rfl | ⟨more, b, rfl⟩
    · exact List.suffix_refl word
    · have blank := apart b (by rw [← same, ← List.append_assoc, List.getLast?_concat])
      exact absurd (plain b (by simp)) (by simp [blank])

theorem completes_of_parts (apart : Text.Apart head) (plain : ∀ c ∈ word, Text.isBlank c = false)
    {found : List String} (none_of_empty : word = [] → found = [])
    (begins : ∀ text ∈ found, BeginsLike text word) :
    Completes (String.ofList head) (String.ofList word) (length head, found) where
  start_eq := by rw [← length_toList, String.toList_ofList]
  plain := by rwa [String.toList_ofList]
  longest tail ends inside := by
    rw [String.toList_append, String.toList_ofList, String.toList_ofList] at ends
    rw [String.toList_ofList]
    exact suffix_of_plain apart ends inside
  none_of_empty empty := none_of_empty (by simpa using empty)
  begins := by rwa [String.toList_ofList]

theorem complete?_eq (before after : String) :
    complete? (before ++ after) before.utf8ByteSize =
      (splitAtByte? (wordStart before.toList) before.toList).map fun r =>
        if r.2.isEmpty then (before.utf8ByteSize, [])
        else (wordStart before.toList, candidates (wordStart before.toList = 0) r.2) := by
  have cursor : splitAtByte? before.utf8ByteSize (before ++ after).toList =
      some (before.toList, after.toList) := by
    rw [← length_toList, String.toList_append, splitAtByte?_append]
  simp only [complete?, cursor, Option.bind_eq_bind, Option.bind_some]
  cases splitAtByte? (wordStart before.toList) before.toList with
  | none => rfl
  | some r => exact (apply_ite some _ _ _).symm

/-- The answer is right where the start of the word stands between two characters. -/
theorem completes_of_start {before : String} (after : String) (parts : before.toList = head ++ word)
    (apart : Text.Apart head) (plain : ∀ c ∈ word, Text.isBlank c = false)
    (start : wordStart before.toList = length head) :
    ∃ head word answer, head ++ word = before ∧
      complete? (before ++ after) before.utf8ByteSize = some answer ∧ Completes head word answer := by
  have whole : String.ofList head ++ String.ofList word = before := by
    rw [← String.ofList_append, ← parts, String.ofList_toList]
  have split : splitAtByte? (length head) before.toList = some (head, word) := by
    rw [parts, splitAtByte?_append]
  have answer := complete?_eq before after
  rw [start, split, Option.map_some] at answer
  by_cases empty : word = []
  · have size : before.utf8ByteSize = length head := by
      rw [← length_toList, parts, empty, List.append_nil]
    rw [if_pos (List.isEmpty_iff.2 empty)] at answer
    refine ⟨_, _, _, whole, answer, ?_⟩
    rw [size]
    exact completes_of_parts apart plain (fun _ => rfl) fun _ none => absurd none List.not_mem_nil
  · rw [if_neg (mt List.isEmpty_iff.1 empty)] at answer
    refine ⟨_, _, _, whole, answer, completes_of_parts apart plain (fun nil => absurd nil empty) ?_⟩
    exact fun _ found => beginsLike_of_mem_candidates found

end Answers

/-- With the cursor between two characters there is an answer, and the right one, unless the last
blank before the cursor takes more than one byte. -/
theorem complete?_answers_iff (before after : String) :
    (∃ head word answer, head ++ word = before ∧
        complete? (before ++ after) before.utf8ByteSize = some answer ∧ Completes head word answer) ↔
      NarrowBlank before := by
  obtain ⟨head, word, parts, apart, plain⟩ := Text.exists_last_word before.toList
  have no_blank : word.filter Text.isBlank = [] :=
    List.filter_eq_nil_iff.2 fun c hc => by simp [plain c hc]
  rw [NarrowBlank, parts, List.filter_append, no_blank, List.append_nil]
  rcases List.eq_nil_or_concat' head with rfl | ⟨front, b, rfl⟩
  · refine iff_of_true (completes_of_start after parts apart plain ?_) (by simp)
    rw [parts]
    exact wordStart_plain plain
  · have blank : Text.isBlank b = true := apart b List.getLast?_concat
    have start : wordStart before.toList = length front + 1 := by
      rw [parts, List.append_assoc]
      exact wordStart_blank plain front blank
    have last : ((front ++ [b]).filter Text.isBlank).getLast? = some b := by
      rw [List.filter_append, List.filter_cons_of_pos blank, List.filter_nil, List.getLast?_concat]
    simp only [last, Option.some.injEq, forall_eq']
    constructor
    · -- One byte behind the start of a wider blank is inside it.
      rintro ⟨_, _, answer, _, answered, _⟩
      by_contra wide
      have size := b.utf8Size_pos
      have inside := splitAtByte?_inside (n := 1) (c := b) (by omega) (by omega) front word
      rw [complete?_eq, start, parts, List.append_assoc, List.singleton_append, inside] at answered
      cases answered
    · intro narrow
      refine completes_of_start after parts apart plain ?_
      rw [start, length_append, length, length, narrow]

/-- Behind an ideographic space, which takes three bytes, there is no answer. -/
theorem complete?_wide :
    "SHOW\u3000".utf8ByteSize = 7 ∧ complete? "SHOW\u3000" 7 = none ∧
      complete? "SHOW " 5 = some (5, []) := by
  decide +kernel

end Complete
end WordGraph
