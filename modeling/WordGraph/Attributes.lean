import WordGraph.OrderedMap
import WordGraph.Text.Blank

/-!
Attributes: an ordered map from text to text in which no key or value is empty, has a blank or has a
character that separates words of the query language. The type carries that condition, so every
graph holds only attributes that a query can name.
-/

namespace WordGraph

/-- The characters that have a meaning inside a word of the query language. -/
def isReserved (c : Char) : Bool := c = ':' || c = ';' || c = '<' || c = '>' || c = '='

def admissible (s : String) : Bool :=
  !s.toList.isEmpty && s.toList.all fun c => !Text.isBlank c && !isReserved c

inductive AttributePart where
  | key
  | value
  deriving DecidableEq

def AttributePart.label : AttributePart → String
  | .key => "属性键"
  | .value => "属性值"

inductive AttributeFault where
  | empty (part : AttributePart)
  | unusable (part : AttributePart) (text : String)
  | described (text : String)
  deriving DecidableEq

def AttributeFault.message : AttributeFault → String
  | .empty part => part.label ++ "不能为空"
  | .unusable part text => part.label ++ " '" ++ text ++ "' 含有空白或保留字符"
  | .described text => text

def AttributeFault.ofPart (part : AttributePart) (text : String) : AttributeFault :=
  if text.toList.isEmpty then .empty part else .unusable part text

structure Attributes where
  table : OrderedMap String String
  admissible_entries : ∀ e ∈ table.entries, admissible e.1 = true ∧ admissible e.2 = true

namespace Attributes

theorem ext_table {a b : Attributes} (h : a.table = b.table) : a = b := by
  cases a; cases b; cases h; rfl

instance : DecidableEq Attributes := fun a b =>
  decidable_of_iff (a.table = b.table) ⟨ext_table, fun h => h ▸ rfl⟩

def empty : Attributes := ⟨∅, by intro e he; cases he⟩

instance : EmptyCollection Attributes := ⟨empty⟩
instance : Inhabited Attributes := ⟨empty⟩

def toList (a : Attributes) : List (String × String) := a.table.entries

def get? (a : Attributes) (key : String) : Option String := a.table.find? key
def contains (a : Attributes) (key : String) : Bool := a.table.contains key
def size (a : Attributes) : Nat := a.table.size
def isEmpty (a : Attributes) : Bool := a.table.isEmpty

def put (a : Attributes) (key value : String) (hk : admissible key = true)
    (hv : admissible value = true) : Attributes where
  table := a.table.insert key value
  admissible_entries e he := by
    rcases OrderedMap.mem_entries_insert he with h | h
    · subst h; exact ⟨hk, hv⟩
    · exact a.admissible_entries e h

/-- Sets `key` to `value`; the key is looked at before the value. -/
def insert (a : Attributes) (key value : String) : Except AttributeFault Attributes :=
  if hk : admissible key = true then
    if hv : admissible value = true then .ok (a.put key value hk hv)
    else .error (.ofPart .value value)
  else .error (.ofPart .key key)

def ofList (pairs : List (String × String)) : Except AttributeFault Attributes :=
  pairs.foldlM (fun a p => a.insert p.1 p.2) ∅

/-- Every attribute of `a` and `b`; where both have a key, the value of `b` stands. -/
def merge (a b : Attributes) : Attributes where
  table := a.table.merge b.table
  admissible_entries e he :=
    (OrderedMap.mem_entries_merge he).elim (a.admissible_entries e) (b.admissible_entries e)

def without (a b : Attributes) : Attributes where
  table := a.table.filter fun key _ => !b.contains key
  admissible_entries e he := a.admissible_entries e (List.mem_filter.1 he).1

/-- Says that `a` has every attribute of `filter`, with the same value. -/
def includes (a filter : Attributes) : Bool :=
  filter.toList.all fun e => a.get? e.1 = some e.2

/-- Equality that does not look at the order. -/
def sameEntries (a b : Attributes) : Bool := a.size = b.size && a.includes b

def text (a : Attributes) : String :=
  "\x7b" ++ ", ".intercalate (a.toList.map fun e => e.1 ++ ": " ++ e.2) ++ "\x7d"

theorem insert_eq_ok_iff (a b : Attributes) (key value : String) :
    a.insert key value = .ok b ↔
      ∃ hk hv, b = a.put key value hk hv := by
  unfold insert
  split
  · split
    · simp_all [eq_comm]
    · simp_all
  · simp_all

end Attributes
end WordGraph
