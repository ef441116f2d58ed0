import Straightline.Error
import Straightline.Program.Scope

/-!
# Reading programs

Tokens are read one at a time. Between two tokens the reader is in a `Phase`, which says what of the
current statement has been read, and `State` adds what the statements before it have left: the
statements themselves, the scope, and the declarations of names that were declared before.

The language is

* program: statements, each with a semicolon behind it;
* statement: a type and a name, with `=` and a formula behind them or not; a name, `=` and a
  formula; or `print` with a string or a formula in parentheses;
* formula: a sign or none, and operands with operators between them;
* operand: a name, a number, a character, or a formula in parentheses.

All operators bind equally and group from the left, and a sign belongs to the first operand alone. A
name has to be declared in an earlier statement. The first token that no program can have at its
place ends the reading with an error, which lists the kinds that would do.
-/

namespace Straightline

/-- The arithmetical operation that a token stands for. -/
def BinaryOp.ofKind? : Kind → Option BinaryOp
  | .plus => some .add
  | .minus => some .sub
  | .times => some .mul
  | .divide => some .div
  | .modulo => some .mod
  | _ => none

/-- The variable that a name stands for. -/
def Scope.resolve (scope : Scope) (token : Token) : Except ParseError Variable :=
  match scope.find? token.text with
  | some v => .ok v
  | none => .error (.undeclared token.text token.span)

namespace Parse

/-- What a formula is for. -/
inductive Goal where
  /-- It is the first value of a variable that is being declared. -/
  | declare (v : Variable)
  /-- It is a new value of a variable. -/
  | store (v : Variable)
  /-- It is to be printed. -/
  | print
deriving DecidableEq, Repr

namespace Goal

/-- The statement that a formula completes. -/
def statement : Goal → Term → Term
  | declare v, value | store v, value => .binary .assign (.var v) value
  | print, value => .unary .print value

/-- The kind of token that ends the formula. -/
def closer : Goal → Kind
  | declare _ | store _ => .semicolon
  | print => .rparen

end Goal

/-- A formula of which the next operand is missing. -/
inductive Pending where
  /-- Nothing has been read. -/
  | fresh
  /-- A sign has been read. -/
  | signed (op : UnaryOp)
  /-- The operands up to `left` and an operator have been read. -/
  | applied (left : Term) (op : BinaryOp)
deriving DecidableEq, Repr

/-- The formula once its next operand is there. -/
def Pending.apply : Pending → Term → Term
  | fresh, operand => operand
  | signed op, operand => .unary op operand
  | applied left op, operand => .binary op left operand

/-- What of the current statement has been read. -/
inductive Phase where
  /-- Nothing. -/
  | idle
  /-- A type. -/
  | typed (type : PrimType)
  /-- A type and a name. -/
  | named (v : Variable)
  /-- The name of a declared variable. -/
  | target (v : Variable)
  /-- The word `print`. -/
  | printing
  /-- A formula up to an operand. The formulas around it, innermost first, wait for it to be closed
  by a parenthesis each. -/
  | operand (goal : Goal) (outer : List Pending) (pending : Pending)
  /-- A formula up to and with an operand, inside others as above. -/
  | value (goal : Goal) (outer : List Pending) (value : Term)
  /-- The word `print`, a parenthesis and a string. -/
  | quoted (text : String)
  /-- All of a print statement but its semicolon. -/
  | closed (operand : Term)
deriving DecidableEq, Repr

/-- What a token does to the current statement. -/
inductive Move where
  /-- More of the statement has been read. -/
  | goto (phase : Phase)
  /-- The statement is complete. -/
  | finish (statement : Term)
deriving DecidableEq, Repr

/-- The kinds of token that a statement can start with. -/
def statementStart : List Kind := [.int32, .float32, .char, .name, .print]

/-- The kinds of token that an operand can start with. -/
def operandStart : List Kind := [.name, .integer, .decimal, .character, .lparen]

namespace Phase

/-- The kinds of token that an error in this phase lists. Where a formula or a declaration could
also go on, they are the kinds that would do if it ended here. -/
def expected : Phase → List Kind
  | idle => statementStart
  | typed _ => [.name]
  | named _ => [.semicolon]
  | target _ => [.assign]
  | printing => [.lparen]
  | operand _ _ _ => operandStart
  | value goal [] _ => [goal.closer]
  | value _ (_ :: _) _ => [.rparen]
  | quoted _ => [.rparen]
  | closed _ => [.semicolon]

/-- The variable that the statement declares, if it could end here. -/
def declares? : Phase → Option Variable
  | named v => some v
  | value (.declare v) [] _ => some v
  | _ => none

/-- The error of a token that cannot stand here. -/
def reject (phase : Phase) (token : Token) : Except ParseError Move :=
  .error (.unexpected phase.expected token)

/-- Reads a token where a statement starts. -/
def start (scope : Scope) (token : Token) : Except ParseError Move :=
  match token.kind with
  | .int32 => .ok (.goto (typed .int32))
  | .float32 => .ok (.goto (typed .float32))
  | .char => .ok (.goto (typed .char))
  | .name => (scope.resolve token).map fun v => .goto (target v)
  | .print => .ok (.goto printing)
  | _ => idle.reject token

/-- Reads a token where an operand starts. A sign can stand before the first operand of a formula,
and a string in place of a printed formula. -/
def startOperand (scope : Scope) (goal : Goal) (outer : List Pending) (pending : Pending)
    (token : Token) : Except ParseError Move :=
  let literal (kind : LiteralKind) : Except ParseError Move :=
    .ok (.goto (value goal outer (pending.apply (.lit kind token.text))))
  match token.kind, pending with
  | .name, _ =>
    (scope.resolve token).map fun v => .goto (value goal outer (pending.apply (.var v)))
  | .integer, _ => literal .integer
  | .decimal, _ => literal .decimal
  | .character, _ => literal .character
  | .lparen, _ => .ok (.goto (operand goal (pending :: outer) .fresh))
  | .plus, .fresh => .ok (.goto (operand goal outer (.signed .plus)))
  | .minus, .fresh => .ok (.goto (operand goal outer (.signed .minus)))
  | .string, .fresh =>
    if goal = .print ∧ outer = [] then .ok (.goto (quoted token.text))
    else (operand goal outer pending).reject token
  | _, _ => (operand goal outer pending).reject token

/-- Reads a token behind an operand. -/
def afterOperand (goal : Goal) (outer : List Pending) (term : Term) (token : Token) :
    Except ParseError Move :=
  match BinaryOp.ofKind? token.kind with
  -- All operators bind equally, so what has been read is the left operand of the next one.
  | some op => .ok (.goto (operand goal outer (.applied term op)))
  | none =>
    match outer with
    | pending :: outer' =>
      if token.kind = .rparen then .ok (.goto (value goal outer' (pending.apply term)))
      else (value goal outer term).reject token
    | [] =>
      if token.kind = goal.closer then
        match goal with
        | .print => .ok (.goto (closed term))
        | _ => .ok (.finish (goal.statement term))
      else (value goal outer term).reject token

/-- Reads a token. -/
def next (scope : Scope) (phase : Phase) (token : Token) : Except ParseError Move :=
  match phase with
  | idle => start scope token
  | typed type =>
    if token.kind = .name then .ok (.goto (named ⟨type, token.text⟩)) else phase.reject token
  | named v =>
    -- The name is not in scope yet: the formula behind `=` cannot refer to it.
    if token.kind = .assign then .ok (.goto (operand (.declare v) [] .fresh))
    else if token.kind = .semicolon then .ok (.finish (.var v))
    else phase.reject token
  | target v =>
    if token.kind = .assign then .ok (.goto (operand (.store v) [] .fresh))
    else phase.reject token
  | printing =>
    if token.kind = .lparen then .ok (.goto (operand .print [] .fresh)) else phase.reject token
  | operand goal outer pending => startOperand scope goal outer pending token
  | value goal outer term => afterOperand goal outer term token
  | quoted text =>
    if token.kind = .rparen then .ok (.goto (closed (.lit .string text))) else phase.reject token
  | closed term =>
    if token.kind = .semicolon then .ok (.finish (Goal.print.statement term))
    else phase.reject token

end Phase

/-- A declaration of a name that was declared before. -/
structure Redeclaration where
  /-- The variable as it is declared now. -/
  declared : Variable
  /-- The type that the name has and keeps. -/
  kept : PrimType
deriving DecidableEq, Repr

/-- What has been read up to a place between two tokens. -/
structure State where
  /-- The complete statements. -/
  statements : List Term
  /-- The variables that they declare. -/
  scope : Scope
  /-- Those of their declarations that are of a name declared before. -/
  redeclarations : List Redeclaration
  /-- What of the next statement has been read. -/
  phase : Phase
deriving DecidableEq, Repr

namespace State

/-- The state before the first token. -/
def start : State := ⟨[], .empty, [], .idle⟩

/-- The scope if the current statement ends here. -/
def scopeHere (state : State) : Scope :=
  match state.phase.declares? with
  | some v => state.scope.declare v
  | none => state.scope

/-- The redeclarations if the current statement ends here. -/
def redeclarationsHere (state : State) : List Redeclaration :=
  match state.phase.declares? with
  | some v => state.redeclarations ++
      ((state.scope.find? v.name).map fun earlier => ⟨v, earlier.type⟩).toList
  | none => state.redeclarations

/-- Makes a move. -/
def move (state : State) : Move → State
  | .goto phase => { state with phase }
  | .finish statement =>
    ⟨state.statements ++ [statement], state.scopeHere, state.redeclarationsHere, .idle⟩

/-- Reads a token. -/
def step (state : State) (token : Token) : Except ParseError State :=
  (state.phase.next state.scope token).map state.move

end State

/-- How far tokens could be read. -/
structure Reading where
  /-- The state in which the reading ended. -/
  state : State
  /-- Why it ended before the program did. -/
  error : Option ParseError
deriving DecidableEq, Repr

/-- Reads tokens to their end or to the first error. -/
def readFrom (state : State) : List Token → Reading
  | [] => ⟨state, if state.phase = .idle then none else some (.exhausted state.phase.expected)⟩
  | token :: tokens =>
    match state.step token with
    | .ok state' => readFrom state' tokens
    | .error e => ⟨state, some e⟩

/-- Reads tokens from the start of a program. -/
def read (tokens : List Token) : Reading :=
  readFrom .start tokens

end Parse

/-- The program that tokens make, or the first error. -/
def parse (tokens : List Token) : Except ParseError Program :=
  let reading := Parse.read tokens
  match reading.error with
  | none => .ok reading.state.statements
  | some e => .error e

end Straightline
