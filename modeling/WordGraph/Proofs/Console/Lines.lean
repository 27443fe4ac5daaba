import WordGraph.Console.Buffer
import WordGraph.Proofs.Query.Malformed
import WordGraph.Proofs.Text.Words

/-!
Text that is typed line by line. The buffer hands on whole statements and keeps the rest, and neither
trimming the lines nor joining them by spaces makes or loses a word. So the texts that it hands on,
executed in turn, do what the lines do as one text.
-/

namespace WordGraph

namespace Buffer

variable {line : String}

/-- Pushes lines in turn; the texts that they complete come with what is left. -/
def pushAll (b : Buffer) : List String → Buffer × List String
  | [] => (b, [])
  | line :: rest =>
      let (next, text) := b.push line
      let (final, texts) := next.pushAll rest
      (final, text.toList ++ texts)

/-- The lines up to the last one that ends a statement. -/
def completed (lines : List String) : List String :=
  lines.rdropWhile fun line => !endsStatement (Text.trim line)

/-- The buffer and the parser agree on where a statement ends. -/
theorem endsStatement_trim_iff (line : String) :
    endsStatement (Text.trim line) = true ↔ (splitWords line).getLast? = some ";" := by
  rw [endsStatement, decide_eq_true_iff, ← splitWords_trim,
    getLast?_splitWords_iff fun _ last => Text.getLast?_trim last]

theorem splitWords_joined (b : Buffer) (line : String) :
    splitWords (if b.isEmpty then Text.trim line else b.pending ++ " " ++ Text.trim line) =
      splitWords b.pending ++ splitWords line := by
  split
  · rename_i empty
    rw [isEmpty, String.isEmpty_iff] at empty
    rw [empty, splitWords_trim]
    rfl
  · rw [splitWords_append_blank _ _ (c := ' ') (by decide) (by decide), splitWords_trim]

theorem push_open (b : Buffer) (ends : endsStatement (Text.trim line) = false) :
    ∃ next, b.push line = (next, none) ∧
      splitWords next.pending = splitWords b.pending ++ splitWords line := by
  rw [push]
  by_cases blank : (Text.trim line).isEmpty = true
  · have nothing : splitWords line = [] := by
      rw [← splitWords_trim, String.isEmpty_iff.1 blank]
      rfl
    exact ⟨b, if_pos blank, by rw [nothing, List.append_nil]⟩
  · simp only [if_neg blank, ends]
    exact ⟨_, rfl, b.splitWords_joined line⟩

theorem push_ends (b : Buffer) (ends : endsStatement (Text.trim line) = true) :
    ∃ text, b.push line = ({}, some text) ∧
      splitWords text = splitWords b.pending ++ splitWords line ∧
      (splitWords text).getLast? = some ";" := by
  have last := (endsStatement_trim_iff line).1 ends
  have filled : ¬ (Text.trim line).isEmpty = true := by
    intro blank
    rw [String.isEmpty_iff.1 blank] at ends
    exact absurd ends (by decide)
  have words := b.splitWords_joined line
  refine ⟨_, ?_, words, ?_⟩
  · simp only [push, if_neg filled, ends, if_true]
  · rw [words, List.getLast?_append, last]
    rfl

theorem words_pushAll (b : Buffer) (lines : List String) :
    (b.pushAll lines).2.flatMap splitWords ++ splitWords (b.pushAll lines).1.pending =
      splitWords b.pending ++ lines.flatMap splitWords := by
  induction lines generalizing b with
  | nil => exact (List.append_nil _).symm
  | cons line rest ih =>
      rw [pushAll, List.flatMap_cons]
      cases ends : endsStatement (Text.trim line) with
      | false =>
          obtain ⟨next, pushed, words⟩ := b.push_open ends
          simp only [pushed, Option.toList_none, List.nil_append, ih, words, List.append_assoc]
      | true =>
          obtain ⟨text, pushed, words, _⟩ := b.push_ends ends
          simp only [pushed, Option.toList_some, List.singleton_append, List.flatMap_cons,
            List.append_assoc, ih, words]
          rfl

theorem getLast?_pushAll (b : Buffer) (lines : List String) :
    ∀ text ∈ (b.pushAll lines).2, (splitWords text).getLast? = some ";" := by
  induction lines generalizing b with
  | nil => exact nofun
  | cons line rest ih =>
      rw [pushAll]
      cases ends : endsStatement (Text.trim line) with
      | false =>
          obtain ⟨next, pushed, _⟩ := b.push_open ends
          simp only [pushed, Option.toList_none, List.nil_append]
          exact ih next
      | true =>
          obtain ⟨text, pushed, _, last⟩ := b.push_ends ends
          simp only [pushed, Option.toList_some, List.singleton_append, List.forall_mem_cons]
          exact ⟨last, ih {}⟩

theorem pushAll_append (b : Buffer) (lines more : List String) :
    b.pushAll (lines ++ more) =
      (((b.pushAll lines).1.pushAll more).1,
        (b.pushAll lines).2 ++ ((b.pushAll lines).1.pushAll more).2) := by
  induction lines generalizing b with
  | nil => rfl
  | cons line rest ih => simp only [List.cons_append, pushAll, ih, List.append_assoc]

/-- Lines that are completed leave nothing behind, and the others complete no text. -/
theorem pushAll_completed (lines : List String) :
    pushAll {} (completed lines) = ({}, (pushAll {} lines).2) := by
  induction lines using List.reverseRecOn with
  | nil => rfl
  | append_singleton lines line ih =>
      rw [completed, List.rdropWhile_concat, pushAll_append]
      cases ends : endsStatement (Text.trim line) with
      | false =>
          obtain ⟨next, pushed, _⟩ := (pushAll {} lines).1.push_open ends
          simp only [pushAll, pushed, Option.toList_none, List.append_nil]
          exact ih
      | true =>
          obtain ⟨text, pushed, _⟩ := (pushAll {} lines).1.push_ends ends
          simp only [Bool.not_true, Bool.false_eq_true, if_false, pushAll_append, pushAll, pushed]

end Buffer

namespace Report

theorem moved_zero (r : Report) : r.moved 0 = r := by
  obtain ⟨keyword, result, warnings⟩ := r
  cases keyword with
  | some k => rfl
  | none =>
      cases result with
      | ok outcome => rfl
      | error e =>
          cases e with
          | parse e => cases e <;> simp only [Report.moved, ParseError.moved, Nat.zero_add]
          | _ => rfl

end Report

namespace Session

/-- Executes texts in turn, and gives the reports on each of them. -/
def executeEach (s : Session) : List String → Session × List (List Report)
  | [] => (s, [])
  | text :: rest =>
      let (next, reports) := s.execute text
      let (final, more) := next.executeEach rest
      (final, reports :: more)

end Session

/-- The reports on texts as reports on one text, in which `n` words stand before the first of them:
the positions in the errors count all words before. -/
def inOneText (n : Nat) : List String → List (List Report) → List Report
  | text :: texts, reports :: more =>
      reports.map (Report.moved n) ++ inOneText (n + (splitWords text).length) texts more
  | _, _ => []

theorem inOneText_moved (m n : Nat) (texts : List String) (reports : List (List Report)) :
    (inOneText n texts reports).map (Report.moved m) = inOneText (m + n) texts reports := by
  induction texts generalizing n reports with
  | nil => rfl
  | cons text texts ih =>
      cases reports with
      | nil => rfl
      | cons rs more =>
          have moved : Report.moved m ∘ Report.moved n = Report.moved (m + n) :=
            funext fun r => r.moved_moved m n
          rw [inOneText, inOneText, List.map_append, List.map_map, moved, ih, Nat.add_assoc]

namespace Session

theorem executeWords_texts (s : Session) {texts : List String}
    (closed : ∀ text ∈ texts, (splitWords text).getLast? = some ";") :
    s.executeWords (texts.flatMap splitWords) =
      ((s.executeEach texts).1, inOneText 0 texts (s.executeEach texts).2) := by
  induction texts generalizing s with
  | nil => rfl
  | cons text texts ih =>
      obtain ⟨first, others⟩ := List.forall_mem_cons.1 closed
      have still : (s.execute text).2.map (Report.moved 0) = (s.execute text).2 :=
        (List.map_congr_left fun r _ => r.moved_zero).trans (List.map_id _)
      rw [List.flatMap_cons, executeWords_append s (.inr first), ih _ others, inOneText_moved,
        executeEach, inOneText, still, Nat.zero_add, Nat.add_zero]
      rfl

/-- A line completes a text exactly if its last word is the semicolon, and lines that are pushed into an
empty buffer come out as whole statements, with no word lost, made or out of its place. To execute the
texts in turn is to execute the completed lines at once, but for the positions in errors, which then
count from the start of all lines. -/
theorem execute_completed (s : Session) (lines : List String) :
    (∀ line, Buffer.endsStatement (Text.trim line) = true ↔
        (splitWords line).getLast? = some ";") ∧
      ((Buffer.pushAll {} lines).2.flatMap splitWords ++
        splitWords (Buffer.pushAll {} lines).1.pending = splitWords ("\n".intercalate lines)) ∧
      (∀ text ∈ (Buffer.pushAll {} lines).2, (splitWords text).getLast? = some ";" ∧
        ∀ (t : Session), ∀ r ∈ (t.execute text).2, ∀ place,
          r.result ≠ .error (.parse (.malformed place .unterminated))) ∧
      Buffer.pushAll {} (Buffer.completed lines) = ({}, (Buffer.pushAll {} lines).2) ∧
      s.execute ("\n".intercalate (Buffer.completed lines)) =
        ((s.executeEach (Buffer.pushAll {} lines).2).1,
          inOneText 0 (Buffer.pushAll {} lines).2 (s.executeEach (Buffer.pushAll {} lines).2).2) := by
  have joined (lines : List String) : splitWords ("\n".intercalate lines) = lines.flatMap splitWords :=
    splitWords_intercalate lines (c := '\n') (by decide) (by decide)
  have last := Buffer.getLast?_pushAll {} lines
  have whole := Buffer.pushAll_completed lines
  refine ⟨Buffer.endsStatement_trim_iff, ?_, fun text handed => ?_, whole, ?_⟩
  · rw [joined]
    exact Buffer.words_pushAll {} lines
  · refine ⟨last text handed, fun t r reported place failed => ?_⟩
    exact Statement.parse_ne_unterminated (.inr (last text handed)) place
      (parse_of_runStatements reported failed)
  · have words := Buffer.words_pushAll {} (Buffer.completed lines)
    rw [whole] at words
    have same : (Buffer.pushAll {} lines).2.flatMap splitWords =
        (Buffer.completed lines).flatMap splitWords := by simpa [splitWords, Text.words_nil] using words
    rw [execute, joined, ← same, executeWords_texts s last]

/-- A statement over two lines behind a blank one, and one that is not ended. The position in the error
counts from the start of the text, and from the start of all lines if these are executed at once. -/
theorem execute_completed_pending :
    let lines := ["CLEAR ;", "\u3000", "SHOW", " oops ; ", "SHOW"]
    Buffer.pushAll {} lines = (⟨"SHOW"⟩, ["CLEAR ;", "SHOW oops ;"]) ∧
      ((∅ : Session).executeEach ["CLEAR ;", "SHOW oops ;"]).2 =
        [[⟨some .clear, .ok .cleared, []⟩],
          [⟨none, .error (.parse (.malformed 2 .noPattern)), []⟩]] ∧
      ((∅ : Session).execute ("\n".intercalate (Buffer.completed lines))).2 =
        [⟨some .clear, .ok .cleared, []⟩,
          ⟨none, .error (.parse (.malformed 4 .noPattern)), []⟩] := by
  intro lines
  have pushed : Buffer.pushAll {} lines = (⟨"SHOW"⟩, ["CLEAR ;", "SHOW oops ;"]) := by decide +kernel
  have alone : ((∅ : Session).executeEach ["CLEAR ;", "SHOW oops ;"]).2 =
      [[⟨some .clear, .ok .cleared, []⟩],
        [⟨none, .error (.parse (.malformed 2 .noPattern)), []⟩]] := rfl
  have atOnce := (execute_completed ∅ lines).2.2.2.2
  rw [pushed] at atOnce
  refine ⟨pushed, alone, ?_⟩
  rw [atOnce, alone]
  rfl

/-- Two semicolons in a row end one text. -/
example : Buffer.pushAll {} ["CREATE n: a;;", "SHOW"] = (⟨"SHOW"⟩, ["CREATE n: a;;"]) := by
  decide +kernel

end Session
end WordGraph
