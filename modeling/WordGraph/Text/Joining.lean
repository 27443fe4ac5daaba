import WordGraph.Text.Column
import WordGraph.Text.Emoji

/-!
Characters that are drawn as one with those behind them: ligatures of several scripts, pairs of flag
letters, emoji with selectors, modifiers, joiners and tags. Text is laid out from its end, and of what
stands behind a character only its front matters.
-/

namespace WordGraph.Text

inductive Selector where
  | text
  | emoji
  deriving DecidableEq

/-- What the text behind a character begins with, as far as something can be drawn as one with it. A
letter is joined if a joiner stands before it. -/
inductive Front where
  | other
  | lineFeed
  | alef
  | lamed (joined : Bool)
  | ya (joined : Bool)
  | yaWithVowel
  | tifinagh (joined : Bool)
  | boundTifinagh
  | lisuTone
  | oldTurkic (joined : Bool)
  | khmer
  | kiratE
  | kiratAi
  | emoji
  | modifier
  | flagLetter
  | flagLetters
  | joinedEmoji
  | joinedKeycap
  | joinedFlagLetter
  | evenJoinedFlagLetters
  | oddJoinedFlagLetters
  | tags (letters digits : Nat)
  deriving DecidableEq

/-- The front of the text behind a character, and a selector before it that still looks for the
character it belongs to. -/
structure Behind where
  front : Front := .other
  selector : Option Selector := none
  deriving DecidableEq, Inhabited

section Letters

/-- Arabic letters that end in an alef when a lam stands before them. -/
def alefRanges : List (Nat × Nat) :=
  [(0x622, 0x623), (0x625, 0x625), (0x627, 0x627), (0x671, 0x673), (0x675, 0x675), (0x773, 0x774),
   (0x870, 0x882)]

def lamRanges : List (Nat × Nat) :=
  [(0x644, 0x644), (0x6B5, 0x6B8), (0x76A, 0x76A), (0x8A6, 0x8A6), (0x8C7, 0x8C7)]

/-- Format characters between two Arabic letters that do not part them. -/
def transparentRanges : List (Nat × Nat) :=
  [(0xAD, 0xAD), (0x61C, 0x61C), (0x70F, 0x70F), (0x200B, 0x200B), (0x200E, 0x200F),
   (0x202A, 0x202E), (0x2060, 0x2064), (0x206A, 0x206F), (0xFEFF, 0xFEFF), (0x1BCA0, 0x1BCA3),
   (0x1D173, 0x1D17A), (0xE0001, 0xE0001), (0xE0020, 0xE007F)]

/-- Khmer letters that have a form below another letter. -/
def khmerRanges : List (Nat × Nat) :=
  [(0x1780, 0x1782), (0x1784, 0x1787), (0x1789, 0x178C), (0x178E, 0x1793), (0x1795, 0x1798),
   (0x179B, 0x179D), (0x17A0, 0x17A0), (0x17A2, 0x17A2), (0x17A7, 0x17A7), (0x17AB, 0x17AC),
   (0x17AF, 0x17AF)]

def isAlef (c : Char) : Bool := inRanges alefRanges c.toNat
def isLam (c : Char) : Bool := inRanges lamRanges c.toNat
def isKhmer (c : Char) : Bool := inRanges khmerRanges c.toNat
def isTifinagh (c : Char) : Bool := inRanges [(0x2D31, 0x2D65), (0x2D6F, 0x2D6F)] c.toNat
def isTransparent (c : Char) : Bool :=
  c ≠ letterJoiner && (isMark c || inRanges transparentRanges c.toNat)

end Letters

namespace Front

def isLetter : Front → Bool
  | alef | lamed _ | ya _ | yaWithVowel | tifinagh _ | boundTifinagh | lisuTone | oldTurkic _ | khmer
  | kiratE | kiratAi => true
  | _ => false

/-- Says that an emoji before this is one picture with it. -/
def awaitsEmoji : Front → Bool
  | joinedEmoji | joinedKeycap => true
  | _ => false

/-- The front that a character makes when it is drawn on its own. -/
def ofChar (c : Char) : Front :=
  if c.toNat ≤ 0xA0 then (if c = '\n' then lineFeed else other)
  else if isKhmer c then khmer
  else if c = 'ל' then lamed false
  else if isAlef c then alef
  else if c = '\u1a10' then ya false
  else if isTifinagh c then tifinagh false
  else if c = '\ua4fc' || c = '\ua4fd' then lisuTone
  else if c = Char.ofNat 0x10C03 then oldTurkic false
  else if c = Char.ofNat 0x16D67 then kiratE
  else if c = Char.ofNat 0x16D68 then kiratAi
  else if isFlagLetter c then flagLetter
  else if isModifier c then modifier
  else if isEmoji c then emoji
  else other

def join : Front → Front
  | lamed _ => lamed true
  | ya _ => ya true
  | tifinagh _ => tifinagh true
  | oldTurkic _ => oldTurkic true
  | f => f

/-- A letter that is one with the letter before it: the columns it adds, and the front of both. -/
def ligature? (f : Front) (c : Char) : Option (Int × Front) :=
  match f with
  | lineFeed => if c = '\r' then some (0, other) else none
  | alef => if isLam c then some (0, other) else none
  | lamed true => if c = 'א' then some (0, other) else none
  | ya true => if c = '\u1a17' then some (0, yaWithVowel) else none
  | yaWithVowel => if c = '\u1a15' then some (0, other) else none
  | tifinagh joined =>
      if c = letterJoiner then some (1, boundTifinagh)
      else if joined && isTifinagh c then some (0, other)
      else none
  | boundTifinagh => if isTifinagh c then some (-1, other) else none
  | lisuTone => if '\ua4f8' ≤ c && c ≤ '\ua4fb' then some (0, other) else none
  | oldTurkic true => if c = Char.ofNat 0x10C32 then some (0, other) else none
  | khmer => if c = '\u17d2' then some (-1, other) else none
  | kiratE =>
      if c = Char.ofNat 0x16D63 || c = Char.ofNat 0x16D69 then some (0, other)
      else if c = Char.ofNat 0x16D67 then some (0, kiratAi)
      else if c = Char.ofNat 0x16D68 then some (1, kiratE)
      else none
  | kiratAi => if c = Char.ofNat 0x16D63 then some (0, other) else none
  | _ => none

/-- What stands between two letters and does not part them. -/
def passes? (f : Front) (c : Char) : Option (Int × Front) :=
  if f = alef then (if isTransparent c && isZeroWidth c then some (0, alef) else none)
  else if f.isLetter && c = joiner then some (0, f.join)
  else if f.isLetter && isIgnorable c && isMark c then some (0, f)
  else none

/-- The tags of a flag, read from their end: up to six letters, before them up to three digits. -/
def tag? (letters digits : Nat) (c : Char) : Option (Int × Front) :=
  if 0xE0061 ≤ c.toNat && c.toNat ≤ 0xE007A && digits = 0 && letters < 6 then
    some (0, tags (letters + 1) 0)
  else if 0xE0030 ≤ c.toNat && c.toNat ≤ 0xE0039 && digits < 3 && letters ≤ 4 then
    some (0, tags letters (digits + 1))
  else if c = '🏴' && (digits = 3 || (digits = 0 && 3 ≤ letters)) then some (0, emoji)
  else none

/-- A flag letter before this. Flag letters pair up from the left, so those before a joined one are
counted. -/
def flag? : Front → Option (Int × Front)
  | flagLetter | flagLetters => some (1, flagLetters)
  | joinedFlagLetter | oddJoinedFlagLetters => some (-1, evenJoinedFlagLetters)
  | evenJoinedFlagLetters => some (3, oddJoinedFlagLetters)
  | _ => none

def canBeJoined : Front → Bool
  | emoji | modifier | flagLetters | evenJoinedFlagLetters | oddJoinedFlagLetters => true
  | _ => false

/-- A character that is one picture with the emoji behind it. -/
def picture? (f : Front) (c : Char) : Option (Int × Front) :=
  if c = joiner then (if f.canBeJoined then some (0, joinedEmoji) else none)
  else match f with
    | modifier => if takesModifier c then some (0, emoji) else none
    | joinedEmoji =>
        if c = '\u20e3' then some (0, joinedKeycap)
        else if isFlagLetter c then some (1, joinedFlagLetter)
        else if isModifier c then some (0, modifier)
        else if c = Char.ofNat 0xE007F then some (0, tags 0 0)
        else if isEmoji c then some (0, emoji)
        else none
    | tags letters digits => tag? letters digits c
    | f => if isFlagLetter c then f.flag? else none

end Front

namespace Behind

def asks (b : Behind) (s : Selector) : Bool := b.selector = some s

/-- The front when the character before it does not take the selector. -/
def settled (b : Behind) : Front := if b.asks .emoji && b.front.awaitsEmoji then .other else b.front

/-- Keeps the front behind a selector if something can still be drawn as one with it. -/
def select (f : Front) (s : Selector) : Behind :=
  ⟨if f.isLetter || (s = .emoji && f.awaitsEmoji) then f else .other, some s⟩

/-- Puts a character before the rest: the columns it adds, and what stands then behind the next. -/
def before (b : Behind) (c : Char) : Int × Behind :=
  if b.asks .emoji && hasTwoForms c then (if b.front.awaitsEmoji then 0 else 2, { front := .emoji })
  else if b.asks .text && narrowsAsText c then (1, {})
  else if c = emojiSelector then (0, select b.settled .emoji)
  else if c = textSelector then (0, select b.settled .text)
  else match (b.settled.passes? c <|> b.settled.ligature? c) <|> b.settled.picture? c with
    | some (columns, front) => (columns, { front })
    | none => (charColumns c, { front := .ofChar c })

end Behind

end WordGraph.Text
