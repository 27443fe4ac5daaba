/-!
Command line options: switches and options with a value, by a long name or by a letter. Letters can
be run together, and a value can follow its option at once, behind an equals sign or as the next
argument.
-/

namespace WordGraph.Console

/-- What an option takes: nothing, any text, or the name of a file, which is not empty. -/
inductive OptionKind where
  | switch
  | text
  | file
  deriving DecidableEq

structure OptionRule where
  name : String
  letter : Option Char
  kind : OptionKind
  deriving DecidableEq

/-- Why no options come out of the arguments: help was asked for, or they are wrong. -/
inductive UsageStop where
  | help
  | invalid
  deriving DecidableEq

namespace Options

/-- Options with their values; a switch has the empty value. -/
abbrev Given := List (String × String)

def value? (given : Given) (name : String) : Option String :=
  (given.find? (·.1 = name)).map Prod.snd

def has (given : Given) (name : String) : Bool := (value? given name).isSome

/-- Takes an option with its value; none may be given twice. -/
def give (given : Given) (rule : OptionRule) (value : String) : Except UsageStop Given :=
  if has given rule.name || (rule.kind = .file && value.isEmpty) then .error .invalid
  else .ok (given ++ [(rule.name, value)])

/-- The options so far and the one that waits for its value. -/
structure Progress where
  given : Given := []
  waiting : Option OptionRule := none

def readLetters (rules : List OptionRule) (given : Given) : List Char → Except UsageStop Progress
  | [] => .ok { given }
  | c :: rest =>
      match rules.find? (·.letter = some c) with
      | none => .error (if c = 'h' then .help else .invalid)
      | some rule =>
          if rule.kind = .switch then do readLetters rules (← give given rule "") rest
          else match rest with
            | [] => .ok { given, waiting := some rule }
            | '=' :: value => do return { given := ← give given rule (String.ofList value) }
            | value => do return { given := ← give given rule (String.ofList value) }

def readLong (rules : List OptionRule) (given : Given) (cs : List Char) :
    Except UsageStop Progress :=
  let name := String.ofList (cs.takeWhile (· ≠ '='))
  let value := match cs.dropWhile (· ≠ '=') with
    | [] => none
    | _ :: value => some (String.ofList value)
  match rules.find? (·.name = name), value with
  | some rule, none =>
      if rule.kind = .switch then do return { given := ← give given rule "" }
      else .ok { given, waiting := some rule }
  | some rule, some value =>
      if rule.kind = .switch then .error .invalid
      else do return { given := ← give given rule value }
  | none, none => .error (if name = "help" then .help else .invalid)
  | none, some _ => .error .invalid

/-- Reads arguments from the left. Nothing may stand behind two bare hyphens. -/
def readFrom (rules : List OptionRule) (p : Progress) : List String → Except UsageStop Given
  | [] => if p.waiting.isSome then .error .invalid else .ok p.given
  | arg :: rest =>
      match arg.toList, p.waiting with
      | ['-', '-'], none => if rest.isEmpty then .ok p.given else .error .invalid
      | '-' :: _ :: _, some _ => .error .invalid
      | '-' :: '-' :: cs, none => do readFrom rules (← readLong rules p.given cs) rest
      | '-' :: c :: cs, none => do readFrom rules (← readLetters rules p.given (c :: cs)) rest
      | _, some rule => do readFrom rules { given := ← give p.given rule arg } rest
      | _, none => .error .invalid

def read (rules : List OptionRule) (args : List String) : Except UsageStop Given :=
  readFrom rules {} args

end Options
end WordGraph.Console
