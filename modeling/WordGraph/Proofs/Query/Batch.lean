import WordGraph.Proofs.Query.Dispatch
import WordGraph.Proofs.Query.Splitting

/-!
Batches of statements. A batch in two parts, the first of which leaves no statement open, runs as the
parts do one behind the other, and a statement of which no command is carried out may be left out.
-/

namespace WordGraph

/-- The same report when `n` more words stand before its statement. Only the report on a malformed
statement names a place among the words. -/
def Report.moved (n : Nat) (r : Report) : Report :=
  match r.keyword, r.result with
  | none, .error (.parse e) => { r with result := .error (.parse (e.moved n)) }
  | _, _ => r

theorem Report.moved_of_keyword {r : Report} {k : Keyword} (h : r.keyword = some k) (n : Nat) :
    r.moved n = r := by
  rw [Report.moved, h]

theorem ParseError.moved_moved (e : ParseError) (m n : Nat) : (e.moved n).moved m = e.moved (m + n) := by
  cases e <;> simp only [ParseError.moved, Nat.add_assoc]

theorem Report.moved_moved (r : Report) (m n : Nat) : (r.moved n).moved m = r.moved (m + n) := by
  obtain ⟨keyword, result, warnings⟩ := r
  cases keyword with
  | some k => rfl
  | none =>
      cases result with
      | ok outcome => rfl
      | error e =>
          cases e with
          | parse e => simp only [Report.moved, ParseError.moved_moved]
          | _ => rfl

namespace Session

variable {s : Session}

theorem runCommand_keyword (s : Session) (c : Command) : (s.runCommand c).2.keyword = some c.keyword := by
  rw [runCommand]
  split
  · rfl
  · split
    · rfl
    · rfl

theorem runCommands_moved (s : Session) (n : Nat) (cs : List Command) :
    (s.runCommands cs).2.map (Report.moved n) = (s.runCommands cs).2 := by
  induction cs generalizing s with
  | nil => rfl
  | cons c rest ih =>
      rw [runCommands, List.map_cons, ih, Report.moved_of_keyword (s.runCommand_keyword c)]

theorem runStatements_append (s : Session) (first more : List (Except ParseError (List Command))) :
    s.runStatements (first ++ more) =
      (((s.runStatements first).1.runStatements more).1,
        (s.runStatements first).2 ++ ((s.runStatements first).1.runStatements more).2) := by
  induction first generalizing s with
  | nil => rfl
  | cons statement first ih =>
      cases statement with
      | error e => simp only [List.cons_append, runStatements, ih]
      | ok cs => simp only [List.cons_append, runStatements, ih, List.append_assoc]

theorem runStatements_moved (s : Session) (n : Nat)
    (statements : List (Except ParseError (List Command))) :
    s.runStatements (statements.map fun r => r.mapError (.moved n)) =
      ((s.runStatements statements).1, (s.runStatements statements).2.map (Report.moved n)) := by
  induction statements generalizing s with
  | nil => rfl
  | cons statement rest ih =>
      cases statement with
      | error e =>
          change s.runStatements (.error (e.moved n) :: rest.map _) = _
          simp only [runStatements, ih]
          rfl
      | ok cs =>
          change s.runStatements (.ok cs :: rest.map _) = _
          simp only [runStatements, ih, List.map_append, runCommands_moved]

theorem executeWords_append (s : Session) {u : List String} (closed : Statement.Closed u)
    (v : List String) :
    s.executeWords (u ++ v) =
      (((s.executeWords u).1.executeWords v).1,
        (s.executeWords u).2 ++
          ((s.executeWords u).1.executeWords v).2.map (Report.moved u.length)) := by
  simp only [executeWords, Statement.parse_append closed, runStatements_append, runStatements_moved]

/-- Says of a statement that nothing is carried out of it: it is malformed, or every one of its
commands is refused by its check. -/
def Idle (statement : List String) : Prop :=
  (∃ e, Statement.parse statement = [.error e]) ∨
    ∃ cs, Statement.parse statement = [.ok cs] ∧ ∀ c ∈ cs, ∃ fault, c.check = .error fault

theorem runCommands_of_refused {cs : List Command} (refused : ∀ c ∈ cs, ∃ fault, c.check = .error fault) :
    (s.runCommands cs).1 = s := by
  induction cs with
  | nil => rfl
  | cons c rest ih =>
      obtain ⟨fault, verdict⟩ := refused c (List.mem_cons_self ..)
      rw [runCommands, runCommand_of_fault verdict]
      exact ih fun d hd => refused d (List.mem_cons_of_mem _ hd)

theorem executeWords_of_idle {statement : List String} (idle : Idle statement) :
    (s.executeWords statement).1 = s := by
  rw [executeWords]
  cases idle with
  | inl malformed =>
      obtain ⟨e, read⟩ := malformed
      rw [read]
      rfl
  | inr refused =>
      obtain ⟨cs, read, refused⟩ := refused
      rw [read]
      exact runCommands_of_refused refused

/-- Behind words that leave no statement open, a batch goes on as if it began there, apart from the
positions in its errors. There are as many statements as semicolons, and one more if the last is left
open. An idle statement may be taken out of a batch: the others are reported on as before. -/
theorem executeWords_composes (s : Session) (u v : List String) (closed : Statement.Closed u) :
    s.executeWords (u ++ v) =
        (((s.executeWords u).1.executeWords v).1,
          (s.executeWords u).2 ++
            ((s.executeWords u).1.executeWords v).2.map (Report.moved u.length)) ∧
      (∀ ws, (Statement.parse ws).length =
        ws.count ";" + if ws = [] ∨ ws.getLast? = some ";" then 0 else 1) ∧
      ∀ body, ";" ∉ body → Idle (body ++ [";"]) →
        s.executeWords (u ++ ((body ++ [";"]) ++ v)) =
          ((s.executeWords (u ++ v)).1,
            (s.executeWords u).2 ++
              ((s.executeWords u).1.executeWords (body ++ [";"])).2.map (Report.moved u.length) ++
              ((s.executeWords u).1.executeWords v).2.map
                (Report.moved (u.length + (body ++ [";"]).length))) := by
  refine ⟨executeWords_append s closed v, Statement.length_parse, fun body single idle => ?_⟩
  have ended : Statement.Closed (body ++ [";"]) := .inr List.getLast?_concat
  generalize body ++ [";"] = statement at idle ended
  have further (r : Report) : (r.moved statement.length).moved u.length =
      r.moved (u.length + statement.length) := r.moved_moved _ _
  simp only [executeWords_append s closed, executeWords_append _ ended, executeWords_of_idle idle,
    List.map_append, List.map_map, Function.comp_def, further, List.append_assoc]

/-- A malformed statement between two others, the latter of them left open. -/
theorem executeWords_composes_malformed :
    Statement.Closed ["CREATE", "n:", "a", ";"] ∧ Idle (["CREATE", "a"] ++ [";"]) ∧
      ((∅ : Session).executeWords (["CREATE", "n:", "a", ";"] ++ ((["CREATE", "a"] ++ [";"]) ++
          ["RETURN", "n:", "a"]))).1 =
        ((∅ : Session).executeWords (["CREATE", "n:", "a", ";"] ++ ["RETURN", "n:", "a"])).1 := by
  have closed : Statement.Closed ["CREATE", "n:", "a", ";"] := by decide
  have idle : Idle (["CREATE", "a"] ++ [";"]) := .inl ⟨_, rfl⟩
  have shortened := (executeWords_composes ∅ ["CREATE", "n:", "a", ";"] ["RETURN", "n:", "a"]
    closed).2.2 ["CREATE", "a"] (by decide) idle
  refine ⟨closed, idle, ?_⟩
  rw [shortened]

end Session
end WordGraph
