import WordGraph.Text.Blank
import WordGraph.Text.Utf8

/-!
Records of delimited text. A record ends at a line feed, a carriage return or both. Empty lines hold
none, nor do lines that begin with a number sign, unless the input breaks off in one. A field that
begins with a quote runs to the next quote, and two quotes inside it stand for one.
-/

namespace WordGraph

/-- A line of delimited text: its fields, or nothing that is text. -/
inductive Record where
  | fields (fs : List String)
  | unreadable
  deriving DecidableEq

namespace Record

def lineFeed : UInt8 := 10
def carriageReturn : UInt8 := 13
def quote : UInt8 := 34
def commentMark : UInt8 := 35

inductive Place where
  | startOfRecord
  | startOfField
  | inField
  | inQuotes
  | behindQuote
  | inComment
  | behindReturn
  deriving DecidableEq

/-- Where the reader stands, the bytes of the open field and the fields before it, both the last
first. -/
structure Cursor where
  place : Place := .startOfRecord
  field : List UInt8 := []
  fields : List (List UInt8) := []

namespace Cursor

def closed (c : Cursor) : List (List UInt8) := c.field.reverse :: c.fields

def toRecord (c : Cursor) : List (List UInt8) := c.closed.reverse

def append (c : Cursor) (place : Place) (b : UInt8) : Cursor :=
  { c with place, field := b :: c.field }

/-- Reads a byte that may end the open field; the second part is the record that it completes. -/
def bare (delimiter : UInt8) (c : Cursor) (b : UInt8) : Cursor × Option (List (List UInt8)) :=
  if b = delimiter then ({ place := .startOfField, fields := c.closed }, none)
  else if b = carriageReturn then ({ place := .behindReturn }, some c.toRecord)
  else if b = lineFeed then ({}, some c.toRecord)
  else (c.append .inField b, none)

def openField (delimiter : UInt8) (c : Cursor) (b : UInt8) : Cursor × Option (List (List UInt8)) :=
  if b = quote then ({ c with place := .inQuotes }, none) else c.bare delimiter b

def openRecord (delimiter : UInt8) (b : UInt8) : Cursor × Option (List (List UInt8)) :=
  if b = carriageReturn || b = lineFeed then ({}, none)
  else if b = commentMark then ({ place := .inComment }, none)
  else ({} : Cursor).openField delimiter b

def step (delimiter : UInt8) (c : Cursor) (b : UInt8) : Cursor × Option (List (List UInt8)) :=
  match c.place with
  | .startOfRecord => openRecord delimiter b
  | .startOfField => c.openField delimiter b
  | .inField => c.bare delimiter b
  | .inQuotes =>
      if b = quote then ({ c with place := .behindQuote }, none) else (c.append .inQuotes b, none)
  | .behindQuote => if b = quote then (c.append .inQuotes b, none) else c.bare delimiter b
  | .inComment => if b = lineFeed then ({}, none) else (c, none)
  | .behindReturn => if b = lineFeed then ({}, none) else openRecord delimiter b

/-- What the end of the input completes: a record of which at least the start was seen. A comment
that the input breaks off counts as a record without fields. -/
def finish (c : Cursor) : List (List (List UInt8)) :=
  match c.place with
  | .startOfRecord | .behindReturn => []
  | _ => [c.toRecord]

def run (delimiter : UInt8) (c : Cursor) : List UInt8 → List (List (List UInt8))
  | [] => c.finish
  | b :: rest =>
      let (next, record) := c.step delimiter b
      record.toList ++ next.run delimiter rest

end Cursor

def skipMark : List UInt8 → List UInt8
  | 0xEF :: 0xBB :: 0xBF :: rest => rest
  | bytes => bytes

/-- The fields as text without the blanks around them; one that is not text spoils the record. -/
def ofFields (fields : List (List UInt8)) : Record :=
  match fields.mapM Text.Utf8.decode? with
  | some fs => .fields (fs.map Text.trim)
  | none => .unreadable

def readAll (delimiter : UInt8) (bytes : List UInt8) : List Record :=
  (Cursor.run delimiter {} (skipMark bytes)).map ofFields

end Record
end WordGraph
