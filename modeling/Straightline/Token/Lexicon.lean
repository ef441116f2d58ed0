import Straightline.Pattern.Basic
import Straightline.Text.Position
import Straightline.Token.Kind

/-!
# The lexicon

The lexical rules of the language, in order of priority. A keyword stands before the rule for names,
which accepts the same word, and a decimal number before a whole number, which accepts its digits up
to the point.
-/

namespace Straightline

/-- A lexical rule: the words of `pattern` are tokens of the given kind. -/
structure Rule where
  /-- The kind of the tokens that the rule makes. -/
  kind : Kind
  /-- The words that the rule accepts. -/
  pattern : Pattern
deriving DecidableEq, Repr

/-- The number of characters that the rule takes at the front of `cs`, if it applies there. -/
def Rule.matchLength? (rule : Rule) (cs : List Char) : Option Nat :=
  rule.pattern.matchLength? cs

/-- The number of bytes that the rule takes at the front of `text`, if it applies there. -/
def Rule.matchByteSize? (rule : Rule) (text : String) : Option Nat :=
  (rule.matchLength? text.toList).map fun n => byteSize (text.toList.take n)

@[simp]
theorem Rule.matchByteSize?_eq_none_iff {rule : Rule} {text : String} :
    rule.matchByteSize? text = none ↔ rule.matchLength? text.toList = none :=
  Option.map_eq_none_iff

namespace Lexicon

open Pattern

/-- The ASCII digits. -/
def digits : CharClass := .oneOf [.range '0' '9']

/-- The ASCII digits but zero. -/
def leadingDigits : CharClass := .oneOf [.range '1' '9']

/-- The signs that a number can start with. -/
def signs : CharClass := .oneOf [.single '-', .single '+']

/-- Blanks, tabs and line ends. -/
def blanks : CharClass := .oneOf [.single ' ', .single '\t', .single '\r', .single '\n']

/-- The characters that can start a name. -/
def nameStart : CharClass := .oneOf [.single '_', .range 'a' 'z', .range 'A' 'Z']

/-- The characters that can continue a name. -/
def nameRest : CharClass := .oneOf [.single '_', .range 'a' 'z', .range 'A' 'Z', .range '0' '9']

/-- At least one blank. -/
def space : Pattern := many1 blanks

/-- A number with digits on both sides of its point, and no zero in front of other digits. -/
def decimal : Pattern :=
  seq (optional signs) <| group <|
    either
      (group (seq (char '0') (seq (char '.') (many1 digits))))
      (group (seq (one leadingDigits) (seq (many digits) (seq (char '.') (many1 digits)))))

/-- A whole number with no zero in front of other digits. -/
def integer : Pattern :=
  seq (optional signs) (group (either (char '0') (seq (one leadingDigits) (many digits))))

/-- Any one character between single quotes, on one line. -/
def character : Pattern :=
  seq (char '\'') (seq (one .inLine) (char '\''))

/-- Any text without a double quote between double quotes, on one line. -/
def string : Pattern :=
  seq (char '"') (seq (many (.noneOf [.single '"', .single '\n'])) (char '"'))

/-- A letter or underscore, then letters, underscores and digits. -/
def name : Pattern :=
  seq (one nameStart) (many nameRest)

/-- The lexical rules in order of priority. -/
def rules : List Rule :=
  [⟨.space, space⟩,
   -- Keywords, before names.
   ⟨.int32, keyword "int32"⟩,
   ⟨.float32, keyword "float32"⟩,
   ⟨.char, keyword "char"⟩,
   ⟨.void, keyword "void"⟩,
   ⟨.print, keyword "print"⟩,
   -- Literals, the longer kind of number first.
   ⟨.decimal, decimal⟩,
   ⟨.integer, integer⟩,
   ⟨.character, character⟩,
   ⟨.string, string⟩,
   ⟨.name, name⟩,
   -- Signs of one character.
   ⟨.assign, char '='⟩,
   ⟨.plus, char '+'⟩,
   ⟨.minus, char '-'⟩,
   ⟨.times, char '*'⟩,
   ⟨.divide, char '/'⟩,
   ⟨.modulo, char '%'⟩,
   ⟨.lparen, char '('⟩,
   ⟨.rparen, char ')'⟩,
   ⟨.lbrace, char '\x7b'⟩,
   ⟨.rbrace, char '\x7d'⟩,
   ⟨.semicolon, char ';'⟩]

/-- The place of the rule for a kind in the order of priority, from zero. -/
def priority (kind : Kind) : Nat :=
  rules.findIdx (·.kind == kind)

/-- The pattern of the rule for a kind. -/
def pattern? (kind : Kind) : Option Pattern :=
  (rules.find? (·.kind == kind)).map Rule.pattern

/-- The rules that match at the front of a text, in order of priority, each by its kind and the
number of bytes that it takes. -/
def matchesAt (text : String) : List (Kind × Nat) :=
  rules.filterMap fun rule => (rule.matchByteSize? text).map fun n => (rule.kind, n)

/-- Every kind has a rule. -/
theorem priority_lt (kind : Kind) : priority kind < rules.length := by
  cases kind <;> decide

end Lexicon

end Straightline
