import WordGraph.Proofs.Query.Batch
import WordGraph.Proofs.Query.Machine

/-!
Where errors come from. A statement is malformed for what one of its words is, or because it is the
last and has no semicolon: so a statement that has one is never said to want it, and the store is only
blamed for a pair that it refuses. The commands of a statement fail for reasons of their own.
-/

namespace WordGraph

/-- Says that a statement can fail with this fault at this token. The store alone refuses a pair as
such, and no token is to blame for a semicolon that is missing. -/
def StatementFault.ArisesOn (t : Token) : StatementFault → Prop
  | .badPair fault =>
      ∃ key value, t = .pair key value ∧ ∃ a : Attributes, a.insert key value = .error fault
  | .unterminated | .described _ => False
  | _ => True

/-- Says that a statement can fail with this error at this word. -/
def ParseError.ArisesOn (w : String) : ParseError → Prop
  | .unknownWord v _ => v = w
  | .malformed _ fault => fault.ArisesOn (Token.ofWord w)

theorem rejection_arisesOn (state : ParseState) (t : Token) : (rejection state t).ArisesOn t := by
  cases state <;> cases t <;> trivial

theorem editLast_failsOnly {ε α : Type} {P : ε → Prop} {fault : ε} (h : P fault) {f : α → Except ε α}
    (edit : ∀ x, Except.FailsOnly P (f x)) (xs : List α) :
    Except.FailsOnly P (editLast fault f xs) := by
  rw [editLast]
  split
  · exact .error h
  · exact (edit _).map _

namespace Draft

variable {t : Token}

theorem checkComplete_failsOnly (d : Draft) :
    Except.FailsOnly (StatementFault.ArisesOn t) d.checkComplete := by
  rw [checkComplete]
  split
  · exact .error trivial
  · exact .ok ()

theorem editCommand_failsOnly (d : Draft) {f : Command → Except StatementFault Command}
    (edit : ∀ c, Except.FailsOnly (StatementFault.ArisesOn t) (f c)) :
    Except.FailsOnly (StatementFault.ArisesOn t) (d.editCommand f) :=
  (editLast_failsOnly trivial edit d.commands).map _

theorem insertPair_failsOnly (key value : String) (c : Command) :
    Except.FailsOnly (StatementFault.ArisesOn (.pair key value)) (insertPair key value c) := by
  rw [insertPair]
  split
  · exact .error trivial
  · rename_i p _
    have stored : Except.FailsOnly (StatementFault.ArisesOn (.pair key value))
        ((p.attributes.insert key value).mapError .badPair) :=
      .mapError fun fault failed => ⟨key, value, rfl, p.attributes, failed⟩
    have flagged := flagOf_failsOnly (P := StatementFault.ArisesOn (.pair key value)) trivial
      (fun _ => trivial) p.role key value
    exact flagged.bind fun flag => stored.bind fun a => .ok _

/-- Building the commands of a statement fails at a token that gives a reason for it. -/
theorem apply_failsOnly (d : Draft) (a : ParseAction) (t : Token) :
    Except.FailsOnly (StatementFault.ArisesOn t) (d.apply a t) := by
  have complete := d.checkComplete_failsOnly (t := t)
  rw [apply.eq_def]
  split
  case h_1 | h_2 | h_3 => exact .ok _
  case h_4 =>
    refine complete.bind fun _ => ?_
    split
    · exact .ok _
    · exact .error trivial
  case h_5 => exact complete.bind fun _ => d.editCommand_failsOnly fun c => .ok _
  case h_6 =>
    exact d.editCommand_failsOnly fun c => (editLast_failsOnly trivial (fun p => .ok _) c.patterns).map _
  case h_7 key value =>
    exact complete.bind fun _ => d.editCommand_failsOnly (insertPair_failsOnly key value)
  case h_8 =>
    refine (d.editCommand_failsOnly fun c => ?_).map _
    rw [appendPredicate]
    split
    · exact .error trivial
    · exact .ok _
  case h_9 =>
    refine complete.bind fun _ => ?_
    split
    · exact .error trivial
    · exact (d.editCommand_failsOnly fun c => .ok _).map _
  case h_10 => exact complete.bind fun _ => .ok d
  case h_11 => exact .error trivial

end Draft

namespace Statement

theorem rejectionAt_arisesOn (position : Nat) (state : ParseState) (w : String) :
    (rejectionAt position state (Token.ofWord w)).ArisesOn w := by
  have arises := rejection_arisesOn state (Token.ofWord w)
  cases token : Token.ofWord w with
  | unknown v => exact Token.eq_of_ofWord_unknown token
  | _ =>
      rw [token] at arises
      simpa only [rejectionAt, ParseError.ArisesOn, token] using arises

theorem step_failsOnly (position : Nat) (state : ParseState) (draft : Draft) (w : String) :
    Except.FailsOnly (ParseError.ArisesOn w) (step position state draft w) := by
  rw [step]
  obtain ⟨next, action⟩ := transition state (Token.ofWord w)
  dsimp only
  split
  · exact .error (rejectionAt_arisesOn position state w)
  · exact .mapError ((draft.apply_failsOnly action (Token.ofWord w)).map fun d => (next, d))

/-- The reading of one statement fails at one of its words. -/
theorem run_failsOnly (position : Nat) (state : ParseState) (draft : Draft) (ws : List String) :
    Except.FailsOnly (fun e => ∃ w ∈ ws, e.ArisesOn w) (run position state draft ws) := by
  induction ws generalizing position state draft with
  | nil => exact .ok _
  | cons w ws ih =>
      have here : Except.FailsOnly (fun e => ∃ v ∈ w :: ws, ParseError.ArisesOn v e)
          (step position state draft w) := fun e failed =>
        ⟨w, List.mem_cons_self .., step_failsOnly position state draft w e failed⟩
      rw [run]
      refine here.bind fun next => ?_
      by_cases done : next.1 = .done
      · simp only [if_pos done]
        exact .ok _
      · simp only [if_neg done]
        intro e failed
        obtain ⟨v, hv, arises⟩ := ih (position + 1) next.1 next.2 e failed
        exact ⟨v, List.mem_cons_of_mem _ hv, arises⟩

theorem arises_of_readAll {offset : Nat} {statements : List (List String)} {e : ParseError}
    (failed : .error e ∈ readAll offset statements) : ∃ w ∈ statements.flatten, e.ArisesOn w := by
  induction statements generalizing offset with
  | nil => cases failed
  | cons s more ih =>
      rw [List.flatten_cons]
      rcases List.mem_cons.1 failed with here | later
      · obtain ⟨w, hw, arises⟩ := run_failsOnly (offset + 1) .start {} s e here.symm
        exact ⟨w, List.mem_append_left _ hw, arises⟩
      · obtain ⟨w, hw, arises⟩ := ih later
        exact ⟨w, List.mem_append_right _ hw, arises⟩

/-- What is said of an input that is malformed is said of one of its words, or of its end. -/
theorem arises_of_parse {ws : List String} {e : ParseError} (failed : .error e ∈ parse ws) :
    (∃ w ∈ ws, e.ArisesOn w) ∨ ¬Closed ws ∧ e = .malformed ws.length .unterminated := by
  rw [parse] at failed
  rcases List.mem_append.1 failed with read | left
  · obtain ⟨w, hw, arises⟩ := arises_of_readAll read
    exact .inl ⟨w, flatten_split ws ▸ List.mem_append_left _ hw, arises⟩
  · split at left
    · cases left
    · rename_i some
      rw [List.isEmpty_iff, split_snd_eq_nil_iff] at some
      exact .inr ⟨some, Except.error.inj (List.mem_singleton.1 left)⟩

/-- Words that leave no statement open are never said to. -/
theorem parse_ne_unterminated {ws : List String} (closed : Closed ws) (place : Nat) :
    .error (.malformed place .unterminated) ∉ parse ws := by
  intro failed
  rcases arises_of_parse failed with ⟨w, _, arises⟩ | ⟨unfinished, _⟩
  · exact arises
  · exact unfinished closed

end Statement

/-- What is reported on a command that fails: an error of the rules, or the end of the program. -/
def Error.OfCommand : Error → Prop
  | .rule _ _ | .halt _ => True
  | _ => False

namespace Session

theorem createNodes_failsOnly (s : Session) (ps : List Pattern) :
    Except.FailsOnly Error.OfCommand (s.createNodes ps) := by
  induction ps generalizing s with
  | nil => exact .ok _
  | cons p rest ih =>
      have added : Except.FailsOnly Error.OfCommand ((s.graph.addNode p.attributes).mapError .halt) :=
        .mapError fun _ _ => trivial
      rw [createNodes]
      exact added.bind fun g => (ih _).bind fun created => .ok _

theorem dispatch_failsOnly (s : Session) {c : Command} (accepted : c.check = .ok ()) :
    Except.FailsOnly Error.OfCommand (s.dispatch c) := by
  by_cases keyword : c.keyword = .create
  · simp only [dispatch, keyword]
    exact (s.createNodes_failsOnly c.patterns).bind fun created => .ok _
  · obtain ⟨effect, carried⟩ := dispatch_succeeds s c ((Command.check_eq_ok_iff c).1 accepted).1
      (absurd · keyword)
    rw [carried]
    exact .ok effect

theorem runCommand_failsOnly (s : Session) (c : Command) :
    Except.FailsOnly Error.OfCommand (s.runCommand c).2.result := by
  rw [runCommand]
  split
  · exact .error trivial
  · rename_i accepted
    split
    · rename_i failed
      exact .error (s.dispatch_failsOnly accepted _ failed)
    · exact .ok _

theorem runCommands_failsOnly {s : Session} {cs : List Command} {r : Report}
    (reported : r ∈ (s.runCommands cs).2) : Except.FailsOnly Error.OfCommand r.result := by
  induction cs generalizing s with
  | nil => cases reported
  | cons c rest ih =>
      rcases List.mem_cons.1 reported with rfl | later
      · exact s.runCommand_failsOnly c
      · exact ih later

/-- What is reported is said of a command, or says what is wrong with a statement. -/
theorem runStatements_failsOnly {s : Session} {statements : List (Except ParseError (List Command))}
    {r : Report} (reported : r ∈ (s.runStatements statements).2) :
    Except.FailsOnly (fun e => e.OfCommand ∨ ∃ e', e = .parse e' ∧ .error e' ∈ statements) r.result := by
  induction statements generalizing s with
  | nil => cases reported
  | cons statement rest ih =>
      have onward {s : Session} (later : r ∈ (s.runStatements rest).2) :
          Except.FailsOnly (fun e => e.OfCommand ∨ ∃ e', e = .parse e' ∧ .error e' ∈ statement :: rest)
            r.result := fun e failed =>
        (ih later e failed).imp_right fun ⟨e', same, inside⟩ => ⟨e', same, List.mem_cons_of_mem _ inside⟩
      cases statement with
      | error e =>
          rcases List.mem_cons.1 reported with rfl | later
          · exact .error (.inr ⟨e, rfl, List.mem_cons_self ..⟩)
          · exact onward later
      | ok cs =>
          rcases List.mem_append.1 reported with first | later
          · exact fun e failed => .inl (runCommands_failsOnly first e failed)
          · exact onward later

theorem parse_of_runStatements {s : Session} {statements : List (Except ParseError (List Command))}
    {r : Report} (reported : r ∈ (s.runStatements statements).2) {e : ParseError}
    (failed : r.result = .error (.parse e)) : .error e ∈ statements := by
  rcases runStatements_failsOnly reported _ failed with command | ⟨_, same, inside⟩
  · exact command.elim
  · exact Error.parse.inj same ▸ inside

end Session
end WordGraph
