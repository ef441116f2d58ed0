/-!
# Kinds of token

A `Kind` is the lexical class of a token, without its text.
-/

namespace Straightline

/-- The lexical class of a token. -/
inductive Kind where
  /-- A whole number, such as `12` or `-7`. -/
  | integer
  /-- A number with a decimal point, such as `2.5`. -/
  | decimal
  /-- A character between single quotes. -/
  | character
  /-- A text between double quotes. -/
  | string
  /-- A name that is no keyword. -/
  | name
  /-- The keyword `int32`. -/
  | int32
  /-- The keyword `float32`. -/
  | float32
  /-- The keyword `char`. -/
  | char
  /-- The keyword `void`. -/
  | void
  /-- The keyword `print`. -/
  | print
  /-- The sign `=`. -/
  | assign
  /-- The sign `+`. -/
  | plus
  /-- The sign `-`. -/
  | minus
  /-- The sign `*`. -/
  | times
  /-- The sign `/`. -/
  | divide
  /-- The sign `%`. -/
  | modulo
  /-- An opening parenthesis. -/
  | lparen
  /-- A closing parenthesis. -/
  | rparen
  /-- An opening brace. -/
  | lbrace
  /-- A closing brace. -/
  | rbrace
  /-- A semicolon. -/
  | semicolon
  /-- Blanks, tabs and line ends; dropped between tokens. -/
  | space
deriving DecidableEq, Repr

namespace Kind

/-- Whether the kind is one of the two kinds of number. -/
def isNumber : Kind → Bool
  | integer | decimal => true
  | _ => false

/-- Whether a token of this kind can be the last one of an operand. A sign behind such a token is an
operator and never belongs to a number. -/
def endsOperand : Kind → Bool
  | integer | decimal | character | string | name | rparen => true
  | _ => false

/-- The kind as error messages name it. -/
def description : Kind → String
  | integer => "integer literal"
  | decimal => "float literal"
  | character => "char literal"
  | string => "string literal"
  | name => "identifier"
  | int32 => "`int32`"
  | float32 => "`float32`"
  | char => "`char`"
  | void => "`void`"
  | print => "`print`"
  | assign => "`=`"
  | plus => "`+`"
  | minus => "`-`"
  | times => "`*`"
  | divide => "`/`"
  | modulo => "`%`"
  | lparen => "`(`"
  | rparen => "`)`"
  | lbrace => "`\x7b`"
  | rbrace => "`\x7d`"
  | semicolon => "`;`"
  | space => "whitespace"

/-- The kind as log records name it. -/
def label : Kind → String
  | integer => "IntNumber"
  | decimal => "FloatNumber"
  | character => "CharValue"
  | string => "StringValue"
  | name => "Identifier"
  | int32 => "Int32"
  | float32 => "Float32"
  | char => "Char"
  | void => "Void"
  | print => "Print"
  | assign => "Assign"
  | plus => "Plus"
  | minus => "Minus"
  | times => "Multiply"
  | divide => "Divide"
  | modulo => "Modulus"
  | lparen => "LParen"
  | rparen => "RParen"
  | lbrace => "LBrace"
  | rbrace => "RBrace"
  | semicolon => "Semicolon"
  | space => "Space"

/-- All kinds. -/
def all : List Kind :=
  [integer, decimal, character, string, name, int32, float32, char, void, print, assign, plus,
   minus, times, divide, modulo, lparen, rparen, lbrace, rbrace, semicolon, space]

@[simp]
theorem mem_all (k : Kind) : k ∈ all := by
  cases k <;> decide

/-- The kind with the given label. -/
def ofLabel? (s : String) : Option Kind :=
  all.find? (·.label == s)

@[simp]
theorem ofLabel?_label (k : Kind) : ofLabel? k.label = some k := by
  cases k <;> decide

/-- Kinds as a choice: commas between them, and the word "or" before the last. -/
def choice : List Kind → String
  | [] => ""
  | [k] => k.description
  | [k, l] => k.description ++ " or " ++ l.description
  | k :: ks => k.description ++ ", " ++ choice ks

end Kind

end Straightline
