import Straightline.Text.WordChar

/-!
# Patterns

A `Pattern` describes the words that a lexical rule accepts at the front of a text. Patterns are the
small part of regular expressions that the rules need: repetition and option apply to one character
class at a time, and the one assertion is the end of a word.

A pattern may match at the front of a text in several ways. `Pattern.lengths` lists them in order of
preference, by the number of characters taken: the left side of an alternative comes first, and a
repetition takes as much as it can. `Pattern.matchLength?` is the preferred one. `Pattern.text`
writes a pattern down in the usual syntax.
-/

namespace Straightline

/-- An item of a character class. -/
inductive ClassItem where
  /-- A single character. -/
  | single (c : Char)
  /-- All characters from `lo` to `hi`, both included. -/
  | range (lo hi : Char)
deriving DecidableEq, Repr

namespace ClassItem

/-- Whether the item holds `c`. -/
def contains : ClassItem → Char → Bool
  | single d, c => c == d
  | range lo hi, c => lo.toNat ≤ c.toNat && c.toNat ≤ hi.toNat

/-- A character as it is written inside a class. -/
def charText (c : Char) : String :=
  match c with
  | '\n' => "\\n"
  | '\r' => "\\r"
  | '\t' => "\\t"
  | c => String.singleton c

/-- The item as it is written inside a class. -/
def text : ClassItem → String
  | single c => charText c
  | range lo hi => charText lo ++ "-" ++ charText hi

end ClassItem

/-- A set of characters. -/
inductive CharClass where
  /-- Just the character `c`. -/
  | exactly (c : Char)
  /-- The characters of the items. -/
  | oneOf (items : List ClassItem)
  /-- All characters but those of the items. -/
  | noneOf (items : List ClassItem)
  /-- All characters but the line feed. -/
  | inLine
deriving DecidableEq, Repr

namespace CharClass

/-- Whether `c` belongs to the class. -/
def contains : CharClass → Char → Bool
  | exactly d, c => c == d
  | oneOf items, c => items.any (·.contains c)
  | noneOf items, c => !items.any (·.contains c)
  | inLine, c => c != '\n'

/-- The characters with a meaning of their own in a pattern; they are written with a backslash. -/
def special : List Char :=
  ['\\', '.', '+', '*', '?', '(', ')', '|', '[', ']', '\x7b', '\x7d', '^', '$']

/-- The class as it is written in a pattern. -/
def text : CharClass → String
  | exactly c => if c ∈ special then "\\" ++ String.singleton c else String.singleton c
  | oneOf items => "[" ++ String.join (items.map ClassItem.text) ++ "]"
  | noneOf items => "[^" ++ String.join (items.map ClassItem.text) ++ "]"
  | inLine => "."

end CharClass

/-- A description of words. -/
inductive Pattern where
  /-- One character of the class. -/
  | one (s : CharClass)
  /-- Any number of characters of the class, as many as possible. -/
  | many (s : CharClass)
  /-- At least one character of the class, as many as possible. -/
  | many1 (s : CharClass)
  /-- A character of the class if there is one. -/
  | optional (s : CharClass)
  /-- A word of `p`, then one of `q`. -/
  | seq (p q : Pattern)
  /-- A word of `p` or of `q`, preferably of `p`. -/
  | either (p q : Pattern)
  /-- A word of `p`; the pattern is written in parentheses. -/
  | group (p : Pattern)
  /-- The empty word, where the word before it ends: no word character follows. It belongs after a
  pattern whose words end in a word character. -/
  | wordEnd
deriving DecidableEq, Repr

namespace Pattern

/-- The ways in which a pattern matches at the front of a text, most preferred first, each given by
the number of characters that it takes. -/
def lengths : Pattern → List Char → List Nat
  | one _, [] => []
  | one s, c :: _ => if s.contains c then [1] else []
  | many s, cs => (List.range ((cs.takeWhile s.contains).length + 1)).reverse
  | many1 s, cs => (List.range' 1 (cs.takeWhile s.contains).length).reverse
  | optional _, [] => [0]
  | optional s, c :: _ => if s.contains c then [1, 0] else [0]
  | seq p q, cs => (p.lengths cs).flatMap fun m => (q.lengths (cs.drop m)).map (m + ·)
  | either p q, cs => p.lengths cs ++ q.lengths cs
  | group p, cs => p.lengths cs
  | wordEnd, [] => [0]
  | wordEnd, c :: _ => if isWordChar c then [] else [0]

/-- The number of characters that a pattern takes at the front of a text, if it matches there. -/
def matchLength? (p : Pattern) (cs : List Char) : Option Nat :=
  (p.lengths cs).head?

/-- The pattern in the usual syntax of regular expressions. -/
def text : Pattern → String
  | one s => s.text
  | many s => s.text ++ "*"
  | many1 s => s.text ++ "+"
  | optional s => s.text ++ "?"
  | seq p q => p.text ++ q.text
  | either p q => p.text ++ "|" ++ q.text
  | group p => "(" ++ p.text ++ ")"
  | wordEnd => "\\b"

/-- The character `c`. -/
def char (c : Char) : Pattern :=
  one (.exactly c)

/-- The characters of `word`, and the end of a word behind them. -/
def keyword (word : String) : Pattern :=
  word.toList.foldr (fun c p => seq (char c) p) wordEnd

end Pattern

end Straightline
