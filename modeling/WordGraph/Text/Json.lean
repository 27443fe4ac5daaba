/-!
JSON values and their compact text. Objects are written in the order of their members; `sorted` puts
them in the order of their keys. The reader takes an object whose members are all texts.
-/

namespace WordGraph

inductive Json where
  | null
  | bool (b : Bool)
  | number (n : Nat)
  | text (s : String)
  | array (items : List Json)
  | object (members : List (String × Json))

namespace Json

def hexDigit (n : Nat) : Char := (Nat.toDigits 16 n).headD '0'

/-- Control characters, the quote and the backslash are escaped; everything else stands as it is. -/
def escape (c : Char) : List Char :=
  match c with
  | '"' => ['\\', '"']
  | '\\' => ['\\', '\\']
  | '\n' => ['\\', 'n']
  | '\r' => ['\\', 'r']
  | '\t' => ['\\', 't']
  | '\x08' => ['\\', 'b']
  | '\x0c' => ['\\', 'f']
  | c =>
      if c.toNat < 0x20 then ['\\', 'u', '0', '0', hexDigit (c.toNat / 16), hexDigit (c.toNat % 16)]
      else [c]

def quote (s : String) : String := String.ofList ('"' :: s.toList.flatMap escape ++ ['"'])

mutual

def render : Json → String
  | null => "null"
  | bool b => if b then "true" else "false"
  | number n => toString n
  | text s => quote s
  | array items => "[" ++ ",".intercalate (renderItems items) ++ "]"
  | object members => "\x7b" ++ ",".intercalate (renderMembers members) ++ "\x7d"

def renderItems : List Json → List String
  | [] => []
  | j :: rest => j.render :: renderItems rest

def renderMembers : List (String × Json) → List String
  | [] => []
  | (key, j) :: rest => (quote key ++ ":" ++ j.render) :: renderMembers rest

end

def sorted (members : List (String × Json)) : Json :=
  object (members.mergeSort fun a b => a.1 ≤ b.1)

section Reading

def isSpace (c : Char) : Bool := c = ' ' || c = '\t' || c = '\n' || c = '\r'

def skipSpace (cs : List Char) : List Char := cs.dropWhile isSpace

def hexValue? (c : Char) : Option Nat :=
  if '0' ≤ c && c ≤ '9' then some (c.toNat - '0'.toNat)
  else if 'a' ≤ c && c ≤ 'f' then some (c.toNat - 'a'.toNat + 10)
  else if 'A' ≤ c && c ≤ 'F' then some (c.toNat - 'A'.toNat + 10)
  else none

/-- The code unit that four hexadecimal digits write. -/
def unit? (a b c d : Char) : Option Nat := do
  return (← hexValue? a) * 4096 + (← hexValue? b) * 256 + (← hexValue? c) * 16 + (← hexValue? d)

def isLeading (unit : Nat) : Bool := 0xD800 ≤ unit && unit ≤ 0xDBFF
def isTrailing (unit : Nat) : Bool := 0xDC00 ≤ unit && unit ≤ 0xDFFF

/-- The character that two code units of a pair stand for. -/
def pairChar (leading trailing : Nat) : Char :=
  .ofNat (0x10000 + (leading - 0xD800) * 1024 + (trailing - 0xDC00))

def unescape? : Char → Option Char
  | '"' => some '"'
  | '\\' => some '\\'
  | '/' => some '/'
  | 'b' => some '\x08'
  | 'f' => some '\x0c'
  | 'n' => some '\n'
  | 'r' => some '\r'
  | 't' => some '\t'
  | _ => none

/-- Reads a text behind its opening quote and gives back what follows it. A control character has to
be escaped, and half a surrogate pair is no text. -/
def readText? : List Char → Option (List Char × List Char)
  | [] => none
  | '"' :: rest => some ([], rest)
  | '\\' :: 'u' :: a :: b :: c :: d :: rest => do
      let unit ← unit? a b c d
      if isTrailing unit then none
      else if isLeading unit then
        match rest with
        | '\\' :: 'u' :: a :: b :: c :: d :: rest =>
            let trailing ← unit? a b c d
            if isTrailing trailing then
              (readText? rest).map fun r => (pairChar unit trailing :: r.1, r.2)
            else none
        | _ => none
      else (readText? rest).map fun r => (.ofNat unit :: r.1, r.2)
  | '\\' :: e :: rest => do
      let c ← unescape? e
      (readText? rest).map fun r => (c :: r.1, r.2)
  | c :: rest =>
      if c = '\\' || c.toNat < 0x20 then none
      else (readText? rest).map fun r => (c :: r.1, r.2)

def readQuoted? (cs : List Char) : Option (String × List Char) :=
  match skipSpace cs with
  | '"' :: rest => (readText? rest).map fun r => (String.ofList r.1, r.2)
  | _ => none

def readMember? (cs : List Char) : Option ((String × String) × List Char) := do
  let (key, rest) ← readQuoted? cs
  match skipSpace rest with
  | ':' :: rest =>
      let (value, rest) ← readQuoted? rest
      return ((key, value), rest)
  | _ => none

/-- Reads members up to the closing brace. Each takes characters, so their number bounds the
rounds. -/
def readMembers? : Nat → List Char → Option (List (String × String) × List Char)
  | 0, _ => none
  | rounds + 1, cs => do
      let (m, rest) ← readMember? cs
      match skipSpace rest with
      | ',' :: rest => (readMembers? rounds rest).map fun r => (m :: r.1, r.2)
      | '\x7d' :: rest => return ([m], rest)
      | _ => none

/-- The members of an object of texts that makes up the whole input. -/
def readTexts? (s : String) : Option (List (String × String)) := do
  match skipSpace s.toList with
  | '\x7b' :: rest =>
      let (members, rest) ← match skipSpace rest with
        | '\x7d' :: rest => some ([], rest)
        | _ => readMembers? rest.length rest
      if (skipSpace rest).isEmpty then some members else none
  | _ => none

end Reading
end Json
end WordGraph
