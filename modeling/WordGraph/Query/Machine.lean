import WordGraph.Query.Token

/-!
The state machine of statements. A state and a token select the next state and an action; the
actions build the commands of the statement, the last of them and its last pattern being open.
-/

namespace WordGraph

/-- Where a statement stands: at its start, behind a keyword, behind a role marker, behind the parts
of a pattern, behind its terminator, or lost. -/
inductive ParseState where
  | start
  | keyword
  | nodeMarker
  | name
  | pair
  | edgeMarker
  | boolMarker
  | predicate
  | done
  | lost
  deriving DecidableEq

inductive ParseAction where
  | nothing
  | openCommand
  | chainCommand
  | openPattern (role : Role)
  | bindIdentifier
  | insertPair
  | appendPredicate
  | appendCombinator
  | close
  | reject
  deriving DecidableEq

inductive StatementFault where
  | noKeyword
  | noPattern
  | noIdentifier
  | noCombinator (w : String)
  | bareWord (w : String)
  | afterTerminator
  | unexpected
  | danglingCombinator
  | notChainable (k : Keyword)
  | boolKey
  | boolValue (value : String)
  | badPair (fault : AttributeFault)
  | unterminated
  | noOpenCommand
  | noOpenPattern
  | inapplicable
  | described (text : String)
  deriving DecidableEq

def boolKey : String := "val"

/-- The category of attribute faults, which stands before their text. -/
def AttributeFault.fullMessage (f : AttributeFault) : String := "无效的属性: " ++ f.message

def StatementFault.message : StatementFault → String
  | noKeyword => "statement must start with a command keyword"
  | noPattern => "command must be followed by n:, e:, b: or ;"
  | noIdentifier => "role marker must be followed by an identifier"
  | noCombinator w => "expected AND/OR or a predicate, found '" ++ w ++ "'"
  | bareWord w => "unexpected bare word '" ++ w ++ "'"
  | afterTerminator => "tokens after ;"
  | unexpected => "unexpected token"
  | danglingCombinator => "AND/OR must be followed by a predicate"
  | notChainable k => k.word ++ " cannot be chained; end the statement with ; first"
  | boolKey => "boolean pattern only accepts '" ++ WordGraph.boolKey ++ "'"
  | boolValue value => "boolean value must be 0 or 1, found '" ++ value ++ "'"
  | badPair fault => fault.fullMessage
  | unterminated => "statement is not terminated by ;"
  | noOpenCommand => "no open command"
  | noOpenPattern => "no open pattern"
  | inapplicable => "action does not apply"
  | described text => text

def Role.state : Role → ParseState
  | .node => .nodeMarker
  | .edge => .edgeMarker
  | .bool => .boolMarker

/-- What follows a complete part of a pattern. A combinator is a name that only counts as one behind
a predicate. -/
def insidePattern (behindPredicate : Bool) : Token → ParseState × ParseAction
  | .marker role => (role.state, .openPattern role)
  | .pair _ _ => (.pair, .insertPair)
  | .predicate _ _ _ => (.predicate, .appendPredicate)
  | .keyword _ => (.keyword, .chainCommand)
  | .terminator => (.done, .close)
  | .name w =>
      if behindPredicate && (Combinator.ofWord? w).isSome then (.predicate, .appendCombinator)
      else (.lost, .reject)
  | .unknown _ => (.lost, .reject)

def transition : ParseState → Token → ParseState × ParseAction
  | .lost, _ => (.lost, .nothing)
  | _, .unknown _ => (.lost, .reject)
  | .start, .keyword _ => (.keyword, .openCommand)
  | .start, .terminator => (.done, .close)
  | .start, _ => (.lost, .reject)
  | .keyword, .marker role => (role.state, .openPattern role)
  | .keyword, .terminator => (.done, .close)
  | .keyword, _ => (.lost, .reject)
  | .nodeMarker, .name _ => (.name, .bindIdentifier)
  | .nodeMarker, _ => (.lost, .reject)
  | .edgeMarker, .name _ => (.name, .bindIdentifier)
  | .edgeMarker, _ => (.lost, .reject)
  | .boolMarker, .name _ => (.name, .bindIdentifier)
  | .boolMarker, _ => (.lost, .reject)
  | .name, t => insidePattern false t
  | .pair, t => insidePattern false t
  | .predicate, t => insidePattern true t
  | .done, _ => (.lost, .reject)

def rejection : ParseState → Token → StatementFault
  | .start, _ => .noKeyword
  | .keyword, _ => .noPattern
  | .nodeMarker, _ => .noIdentifier
  | .edgeMarker, _ => .noIdentifier
  | .boolMarker, _ => .noIdentifier
  | .predicate, .name w => .noCombinator w
  | _, .name w => .bareWord w
  | .done, _ => .afterTerminator
  | _, _ => .unexpected

def editLast {ε α : Type} (fault : ε) (f : α → Except ε α) (xs : List α) : Except ε (List α) :=
  match xs.getLast? with
  | none => .error fault
  | some x => (f x).map fun y => xs.dropLast ++ [y]

theorem editLast_concat {ε α : Type} (fault : ε) (f : α → Except ε α) (xs : List α) (x : α) :
    editLast fault f (xs ++ [x]) = (f x).map fun y => xs ++ [y] := by
  simp [editLast]

/-- The commands of a statement so far. A combinator waits for the predicate behind it. -/
structure Draft where
  commands : List Command := []
  awaitsPredicate : Bool := false

namespace Draft

def editCommand (d : Draft) (f : Command → Except StatementFault Command) :
    Except StatementFault Draft :=
  (editLast .noOpenCommand f d.commands).map fun cs => { d with commands := cs }

def editPattern (d : Draft) (f : Pattern → Except StatementFault Pattern) :
    Except StatementFault Draft :=
  d.editCommand fun c => (editLast .noOpenPattern f c.patterns).map fun ps => { c with patterns := ps }

def checkComplete (d : Draft) : Except StatementFault Unit :=
  if d.awaitsPredicate then .error .danglingCombinator else .ok ()

/-- The truth value that a pair gives to a pattern of this role; only a boolean pattern has one. -/
def flagOf (role : Role) (key value : String) : Except StatementFault (Option Bool) :=
  if role ≠ .bool then .ok none
  else if key ≠ boolKey then .error .boolKey
  else if value = "0" then .ok (some false)
  else if value = "1" then .ok (some true)
  else .error (.boolValue value)

def insertPair (key value : String) (c : Command) : Except StatementFault Command :=
  match c.patterns.getLast? with
  | none => .error .noOpenPattern
  | some p => do
      let flag ← flagOf p.role key value
      let attributes ← (p.attributes.insert key value).mapError .badPair
      return { c with
        patterns := c.patterns.dropLast ++ [{ p with attributes }]
        flag := flag.or c.flag }

def appendPredicate (key : String) (comparison : Comparison) (threshold : String) (c : Command) :
    Except StatementFault Command :=
  match c.patterns.getLast? with
  | none => .error .noOpenPattern
  | some p =>
      .ok { c with
        predicates := c.predicates ++ [.predicate ⟨key, comparison, threshold, p.identifier⟩] }

def apply (d : Draft) : ParseAction → Token → Except StatementFault Draft
  | .nothing, _ => .ok d
  | .reject, _ => .ok d
  | .openCommand, .keyword k => .ok { d with commands := d.commands ++ [{ keyword := k }] }
  | .chainCommand, .keyword k => do
      d.checkComplete
      if k = .returning then return { d with commands := d.commands ++ [{ keyword := k }] }
      else throw (.notChainable k)
  | .openPattern role, _ => do
      d.checkComplete
      d.editCommand fun c => .ok { c with patterns := c.patterns ++ [⟨role, "", ∅⟩] }
  | .bindIdentifier, .name w => d.editPattern fun p => .ok { p with identifier := w }
  | .insertPair, .pair key value => do
      d.checkComplete
      d.editCommand (insertPair key value)
  | .appendPredicate, .predicate key comparison threshold =>
      (d.editCommand (appendPredicate key comparison threshold)).map fun d =>
        { d with awaitsPredicate := false }
  | .appendCombinator, .name w => do
      d.checkComplete
      match Combinator.ofWord? w with
      | none => throw .inapplicable
      | some combinator =>
          (d.editCommand fun c => .ok { c with
            predicates := c.predicates ++ [.combinator combinator] }).map fun d =>
              { d with awaitsPredicate := true }
  | .close, _ => do
      d.checkComplete
      return d
  | _, _ => .error .inapplicable

end Draft
end WordGraph
