import WordGraph.Query.Machine

/-!
Statements: runs of words up to a semicolon. Each is read on its own, so a malformed one does not
keep the others from being read. Positions count words from 1 in the whole input.
-/

namespace WordGraph

inductive ParseError where
  | unknownWord (w : String) (position : Nat)
  | malformed (position : Nat) (fault : StatementFault)
  deriving DecidableEq

def ParseError.message : ParseError → String
  | unknownWord w position => "词法错误: 第 " ++ toString position ++ " 个单词 '" ++ w ++ "' 无法识别"
  | malformed position fault => "结构错误: 第 " ++ toString position ++ " 个单词处 " ++ fault.message

namespace Statement

def rejectionAt (position : Nat) (state : ParseState) : Token → ParseError
  | .unknown w => .unknownWord w position
  | token => .malformed position (rejection state token)

def step (position : Nat) (state : ParseState) (draft : Draft) (w : String) :
    Except ParseError (ParseState × Draft) :=
  let token := Token.ofWord w
  let (next, action) := transition state token
  if action = .reject then .error (rejectionAt position state token)
  else ((draft.apply action token).map fun d => (next, d)).mapError (.malformed position)

def run (position : Nat) (state : ParseState) (draft : Draft) :
    List String → Except ParseError (List Command)
  | [] => .ok draft.commands
  | w :: ws => do
      let (state, draft) ← step position state draft w
      if state = .done then return draft.commands else run (position + 1) state draft ws

/-- Reads one statement, the first word of which stands behind `offset` other words. -/
def read (offset : Nat) (statement : List String) : Except ParseError (List Command) :=
  run (offset + 1) .start {} statement

/-- The complete statements, each with its semicolon, and the words behind the last of them. -/
def split : List String → List (List String) × List String
  | [] => ([], [])
  | w :: ws =>
      let (statements, rest) := split ws
      if w = ";" then ([w] :: statements, rest)
      else match statements with
        | [] => ([], w :: rest)
        | s :: more => ((w :: s) :: more, rest)

def readAll : Nat → List (List String) → List (Except ParseError (List Command))
  | _, [] => []
  | offset, s :: more => read offset s :: readAll (offset + s.length) more

/-- Reads all statements of the input. Words behind the last semicolon make a malformed one. -/
def parse (ws : List String) : List (Except ParseError (List Command)) :=
  let (statements, rest) := split ws
  readAll 0 statements ++
    if rest.isEmpty then [] else [.error (.malformed ws.length .unterminated)]

def parseText (text : String) : List (Except ParseError (List Command)) := parse (splitWords text)

end Statement
end WordGraph
