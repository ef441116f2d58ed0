/-!
# Programs

A program is a list of statements, and statements are trees: a declaration is a variable, an
assignment is a binary operation, and printing is a unary one. The type of trees is wider than what
source text can say, so that a tree made by other means can be written out as well.
-/

namespace Straightline

/-- The types that a variable can have. -/
inductive PrimType where
  | int32
  | float32
  | char
deriving DecidableEq, Repr

/-- The keyword of a type. -/
def PrimType.keyword : PrimType → String
  | int32 => "int32"
  | float32 => "float32"
  | char => "char"

/-- A name with its type. -/
structure Variable where
  type : PrimType
  name : String
deriving DecidableEq, Repr

/-- The kinds of literal. -/
inductive LiteralKind where
  | integer
  | decimal
  | character
  | string
deriving DecidableEq, Repr

/-- Whether a literal of this kind is a number. -/
def LiteralKind.isNumber : LiteralKind → Bool
  | integer | decimal => true
  | character | string => false

/-- The operations on two trees: assignment, and the five of arithmetic. -/
inductive BinaryOp where
  | assign
  | add
  | sub
  | mul
  | div
  | mod
deriving DecidableEq, Repr

/-- The sign of an operation. -/
def BinaryOp.symbol : BinaryOp → String
  | assign => "="
  | add => "+"
  | sub => "-"
  | mul => "*"
  | div => "/"
  | mod => "%"

/-- The operations on one tree: printing it, and the two signs. -/
inductive UnaryOp where
  | print
  | plus
  | minus
deriving DecidableEq, Repr

/-- A statement or an expression. -/
inductive Term where
  /-- A variable, where it is declared as well as where it is used. -/
  | var (v : Variable)
  /-- A literal, as the source spells it, quotes included. -/
  | lit (kind : LiteralKind) (text : String)
  /-- An operation on two trees. -/
  | binary (op : BinaryOp) (left right : Term)
  /-- An operation on one tree. -/
  | unary (op : UnaryOp) (operand : Term)
deriving DecidableEq, Repr

/-- Statements in the order of execution. -/
abbrev Program := List Term

end Straightline
