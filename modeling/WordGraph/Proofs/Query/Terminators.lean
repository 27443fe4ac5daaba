import WordGraph.Proofs.Query.Splitting
import WordGraph.Proofs.Text.Words
import WordGraph.Query.Session

/-!
Semicolons glued to a text and semicolons behind a blank. Both give the same words unless the text
ends in a semicolon that is itself glued to a word: one semicolon is split off a word, so of two the
first stays in the word, and the statement that it should end runs on to the second.
-/

namespace WordGraph

/-- Says that a text ends in a semicolon with another character of the same word before it. -/
def EndsGlued (t : String) : Prop :=
  ∃ front c, t.toList = front ++ [c, ';'] ∧ Text.isBlank c = false

section Words

variable {w : List Char}

theorem detachTerminator_doubled (front : List Char) (c : Char) :
    detachTerminator (front ++ [c, ';'] ++ [';']) = [String.ofList (front ++ [c, ';']), ";"] ∧
      detachTerminator (front ++ [c, ';']) = [String.ofList (front ++ [c]), ";"] := by
  rw [detachTerminator_concat (by simp), List.append_cons front, detachTerminator_concat (by simp)]
  exact ⟨rfl, rfl⟩

/-- A semicolon glued to one word counts as one behind it, unless another one is glued to the word. -/
theorem detachTerminator_concat_iff (plain : ∀ c ∈ w, Text.isBlank c = false) :
    detachTerminator (w ++ [';']) = (Text.words w).flatMap detachTerminator ++ [";"] ↔
      ¬ ∃ front c, w = front ++ [c, ';'] := by
  by_cases glued : ∃ front c, w = front ++ [c, ';']
  · refine iff_of_false (fun same => ?_) (not_not_intro glued)
    obtain ⟨front, c, rfl⟩ := glued
    rw [flatMap_detachTerminator (by simp) plain, (detachTerminator_doubled front c).1,
      (detachTerminator_doubled front c).2] at same
    exact absurd (congrArg List.length same) (by simp)
  · refine iff_of_true ?_ glued
    rcases List.eq_nil_or_concat' w with rfl | ⟨body, x, rfl⟩
    · decide
    · rw [flatMap_detachTerminator (by simp) plain, detachTerminator_concat (by simp)]
      by_cases ends : x = ';'
      · -- A semicolon that ends the word and is not glued is the whole word.
        subst ends
        rcases List.eq_nil_or_concat' body with rfl | ⟨front, c, rfl⟩
        · decide
        · exact absurd ⟨front, c, by simp⟩ glued
      · rw [detachTerminator_of_open (by simpa using ends)]
        rfl

end Words

section Texts

variable {t : String} {head w : List Char} (parts : t.toList = head ++ w) (apart : Text.Apart head)
include parts apart

theorem splitWords_separate : splitWords (t ++ " ;") =
    (Text.words head).flatMap detachTerminator ++
      ((Text.words w).flatMap detachTerminator ++ [";"]) := by
  have blank : " ;".toList = ' ' :: [';'] := rfl
  rw [splitWords, String.toList_append, parts, List.append_assoc, Text.words_append_of_apart apart,
    blank, Text.words_append_blank _ _ (by decide), List.flatMap_append, List.flatMap_append]
  rfl

variable (plain : ∀ c ∈ w, Text.isBlank c = false)
include plain

theorem endsGlued_iff : EndsGlued t ↔ ∃ front c, w = front ++ [c, ';'] := by
  constructor
  · rintro ⟨front, c, same, inside⟩
    rw [parts] at same
    rcases List.eq_nil_or_concat' w with rfl | ⟨body, x, rfl⟩
    · rw [List.append_nil] at same
      exact absurd (apart ';' (by simp [same])) (by decide)
    · rw [← List.append_assoc, List.append_cons front] at same
      obtain ⟨before, ends⟩ := List.append_inj' same rfl
      obtain rfl := List.singleton_inj.1 ends
      rcases List.eq_nil_or_concat' body with rfl | ⟨body, y, rfl⟩
      · rw [List.append_nil] at before
        exact absurd (apart c (by simp [before])) (by simp [inside])
      · exact ⟨body, y, by rw [List.append_assoc, List.singleton_append]⟩
  · rintro ⟨front, c, rfl⟩
    exact ⟨head ++ front, c, by rw [parts, List.append_assoc], plain c (by simp)⟩

theorem splitWords_glued : splitWords (t ++ ";") =
    (Text.words head).flatMap detachTerminator ++ detachTerminator (w ++ [';']) := by
  have last : ∀ c ∈ w ++ [';'], Text.isBlank c = false :=
    List.forall_mem_append.2 ⟨plain, List.forall_mem_singleton.2 (by decide)⟩
  have behind : (Text.words (w ++ [';'])).flatMap detachTerminator = detachTerminator (w ++ [';']) :=
    flatMap_detachTerminator (by simp) last
  rw [splitWords, String.toList_append, parts, List.append_assoc, Text.words_append_of_apart apart,
    List.flatMap_append, ← behind]
  rfl

end Texts

theorem splitWords_eq_iff (t : String) :
    splitWords (t ++ ";") = splitWords (t ++ " ;") ↔ ¬ EndsGlued t := by
  obtain ⟨head, w, parts, apart, plain⟩ := Text.exists_last_word t.toList
  rw [splitWords_glued parts apart plain, splitWords_separate parts apart,
    List.append_right_inj, detachTerminator_concat_iff plain, endsGlued_iff parts apart plain]

/-- Of two semicolons glued to a word the first ends no statement. -/
theorem length_parseText_lt {t : String} (glued : EndsGlued t) :
    (Statement.parseText (t ++ ";")).length < (Statement.parseText (t ++ " ;")).length := by
  obtain ⟨head, w, parts, apart, plain⟩ := Text.exists_last_word t.toList
  obtain ⟨front, c, rfl⟩ := (endsGlued_iff parts apart plain).1 glued
  have closed (s : String) (ends : s.toList.getLast? = some ';') :
      Statement.Closed (splitWords s) := .inr (getLast?_splitWords ends)
  have joined : String.ofList (front ++ [c, ';']) ≠ ";" := by
    intro same
    have := congrArg (fun s => s.toList.length) same
    simp at this
  rw [Statement.parseText, Statement.parseText, Statement.length_parse, Statement.length_parse,
    if_pos (closed _ (by simp)), if_pos (closed _ (by simp)), splitWords_glued parts apart plain,
    splitWords_separate parts apart, flatMap_detachTerminator (by simp) plain,
    (detachTerminator_doubled front c).1, (detachTerminator_doubled front c).2]
  simp only [List.count_append, List.count_cons, List.count_nil, beq_iff_eq, joined, if_true, if_false]
  omega

/-- A semicolon may be glued to a text or stand behind a blank, unless the text ends in a semicolon
that is glued to a word; then the two differ in their words and in their statements. -/
theorem splitWords_glued_iff (t : String) :
    (splitWords (t ++ ";") = splitWords (t ++ " ;") ↔ ¬ EndsGlued t) ∧
      (Statement.parseText (t ++ ";") = Statement.parseText (t ++ " ;") ↔ ¬ EndsGlued t) ∧
      (EndsGlued t ∨ ∀ s : Session, s.execute (t ++ ";") = s.execute (t ++ " ;")) := by
  refine ⟨splitWords_eq_iff t, ⟨fun same glued => ?_, fun loose => ?_⟩, ?_⟩
  · exact Nat.ne_of_lt (length_parseText_lt glued) (congrArg List.length same)
  · rw [Statement.parseText, (splitWords_eq_iff t).2 loose]
    rfl
  · refine or_iff_not_imp_left.2 fun loose s => ?_
    rw [Session.execute, (splitWords_eq_iff t).2 loose]
    rfl

/-- With two semicolons glued to it a keyword is no word of the language, and its command is lost. -/
theorem splitWords_glued_doubled :
    splitWords ("CLEAR;" ++ ";") ≠ splitWords ("CLEAR;" ++ " ;") ∧
      splitWords ("CLEAR;" ++ ";") = ["CLEAR;", ";"] ∧
      Statement.parseText ("CLEAR;" ++ ";") = [.error (.unknownWord "CLEAR;" 1)] ∧
      Statement.parseText ("CLEAR;" ++ " ;") = [.ok [{ keyword := .clear }], .ok []] := by
  decide +kernel

end WordGraph
