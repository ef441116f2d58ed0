import Straightline.Program.Scope

/-!
# Method bodies

A program is written as the body of a Java method: a line for each statement, then an epilogue of
two lines for each variable, which print its name, type and last value.

A variable gets its type in front of it where its name occurs for the first time, so emitting a tree
needs the scope of the names that have occurred and extends it. The same scope is the list of the
variables that the epilogue prints: a name is entered and its variable is listed in one step.

Java has two tiers of operators where the source has one, so some operands need parentheses to keep
their grouping. An operand gets them only where Java would group otherwise.
-/

namespace Straightline.Java

/-- The Java keyword of a type. -/
def typeKeyword : PrimType → String
  | .int32 => "int"
  | .float32 => "float"
  | .char => "char"

/-- How tightly Java binds an operation. -/
def tier : BinaryOp → Nat
  | .assign => 0
  | .add | .sub => 1
  | .mul | .div | .mod => 2

/-- The two places of an operand. -/
inductive Side where
  | left
  | right
deriving DecidableEq, Repr

/-- Whether Java would group `operand` otherwise if it stood at this side of `op` without
parentheses. The operands of an assignment never need any. -/
def needsParens (op : BinaryOp) (side : Side) (operand : Term) : Bool :=
  match operand with
  | .binary inner _ _ =>
    op ≠ .assign &&
      match side with
      | .left => tier inner < tier op
      | .right => tier inner ≤ tier op
  | _ => false

/-- Whether a number is written with a sign. -/
def isSigned (text : String) : Bool :=
  match text.toList with
  | c :: _ => c == '+' || c == '-'
  | [] => false

/-- Whether a sign can stand right before `operand`: it is a variable or a literal without a sign of
its own. -/
def isUnsignedAtom : Term → Bool
  | .var _ => true
  | .lit kind text => !(kind.isNumber && isSigned text)
  | .binary _ _ _ | .unary _ _ => false

/-- Whether the operand of an operation on one tree needs parentheses. Printing is written as a
call, which has its own. -/
def operandNeedsParens (op : UnaryOp) (operand : Term) : Bool :=
  op ≠ .print && !isUnsignedAtom operand

/-- What stands in front of the operand of an operation on one tree. -/
def opening : UnaryOp → String
  | .print => "System.out.print("
  | .plus => "+"
  | .minus => "-"

/-- What stands behind it. -/
def closing : UnaryOp → String
  | .print => ");"
  | .plus | .minus => ""

/-- Puts parentheses around a text, if it needs them. -/
def wrap (needed : Bool) (text : String) : String :=
  if needed then "(" ++ text ++ ")" else text

/-- Java text, and the scope behind it. -/
structure Emission where
  text : String
  scope : Scope
deriving DecidableEq, Repr

/-- Writes a tree, its parts from left to right. -/
def emit (scope : Scope) : Term → Emission
  | .var v =>
    ⟨(if scope.contains v.name then "" else typeKeyword v.type ++ " ") ++ v.name, scope.declare v⟩
  | .lit _ text => ⟨text, scope⟩
  | .binary op left right =>
    let first := emit scope left
    let second := emit first.scope right
    ⟨wrap (needsParens op .left left) first.text ++ " " ++ op.symbol ++ " " ++
      wrap (needsParens op .right right) second.text, second.scope⟩
  | .unary op operand =>
    let inner := emit scope operand
    ⟨opening op ++ wrap (operandNeedsParens op operand) inner.text ++ closing op, inner.scope⟩

section Equations

variable (scope : Scope) (op : BinaryOp) (left right operand : Term)

theorem emit_var (v : Variable) :
    emit scope (.var v) =
      ⟨(if scope.contains v.name then "" else typeKeyword v.type ++ " ") ++ v.name,
        scope.declare v⟩ := rfl

theorem emit_lit (kind : LiteralKind) (text : String) :
    emit scope (.lit kind text) = ⟨text, scope⟩ := rfl

theorem emit_binary :
    emit scope (.binary op left right) =
      ⟨wrap (needsParens op .left left) (emit scope left).text ++ " " ++ op.symbol ++ " " ++
          wrap (needsParens op .right right) (emit (emit scope left).scope right).text,
        (emit (emit scope left).scope right).scope⟩ := rfl

theorem emit_unary (op : UnaryOp) :
    emit scope (.unary op operand) =
      ⟨opening op ++ wrap (operandNeedsParens op operand) (emit scope operand).text ++ closing op,
        (emit scope operand).scope⟩ := rfl

theorem emit_print :
    emit scope (.unary .print operand) =
      ⟨"System.out.print(" ++ (emit scope operand).text ++ ");", (emit scope operand).scope⟩ := rfl

/-- The sides of an assignment have no parentheses. -/
theorem emit_assign :
    emit scope (.binary .assign left right) =
      ⟨(emit scope left).text ++ " = " ++ (emit (emit scope left).scope right).text,
        (emit (emit scope left).scope right).scope⟩ := by
  have hparens (side : Side) (e : Term) : needsParens .assign side e = false := by
    cases e <;> rfl
  rw [emit_binary, hparens, hparens]
  simp [wrap, BinaryOp.symbol, String.append_assoc]

end Equations

/-- Writes statements, each on a line of its own. -/
def emitStatements (scope : Scope) : Program → Emission
  | [] => ⟨"", scope⟩
  | statement :: program =>
    let first := emit scope statement
    let others := emitStatements first.scope program
    ⟨first.text ++ ";\n" ++ others.text, others.scope⟩

/-- The two lines that print a variable. -/
def report (v : Variable) : String :=
  s!"System.out.print(\"The variable {v.name} has type {v.type.keyword} and value \");\n" ++
    s!"System.out.println({v.name});\n"

/-- The lines that print the variables of a scope. -/
def epilogue (scope : Scope) : String :=
  String.join (scope.toList.map report)

/-- The body for a program, and the variables that it declares. -/
def emitBody (program : Program) : Emission :=
  let statements := emitStatements .empty program
  ⟨"\x7b\n" ++ statements.text ++ epilogue statements.scope ++ "\x7d", statements.scope⟩

/-- The body for a program. -/
def body (program : Program) : String :=
  (emitBody program).text

end Straightline.Java
