import Straightline.Token.Basic

/-!
# Errors

The ways in which a compilation fails, stage by stage, and their messages.
-/

namespace Straightline

/-- Why a text cannot be cut into tokens. -/
inductive LexError where
  /-- No rule applies at the span. The context shows the line, and a caret under the place. -/
  | unrecognized (span : Span) (context : String)
deriving DecidableEq, Repr

/-- Why tokens are no program. -/
inductive ParseError where
  /-- The token `found` stands where one of the expected kinds is needed. -/
  | unexpected (expected : List Kind) (found : Token)
  /-- A name is used before its declaration. -/
  | undeclared (name : String) (span : Span)
  /-- The tokens end where one of the expected kinds is needed. -/
  | exhausted (expected : List Kind)
deriving DecidableEq, Repr

/-- Why a body was not delivered. -/
structure WriteError where
  /-- The file that was to be written. -/
  path : String
  /-- What went wrong. -/
  reason : String
deriving DecidableEq, Repr

/-- Why a compilation failed. -/
inductive Error where
  /-- In cutting the text into tokens. -/
  | lex (e : LexError)
  /-- In reading the tokens as a program. -/
  | parse (e : ParseError)
  /-- In delivering the body. -/
  | write (e : WriteError)
deriving DecidableEq, Repr

/-- A place as messages give it. -/
def Span.location (span : Span) : String :=
  s!"on line {span.line} at column {span.column}"

/-- The message of a lexical error. -/
def LexError.message : LexError → String
  | unrecognized span context => s!"unable to recognize token {span.location}\n{context}"

/-- The message of a syntax error. -/
def ParseError.message : ParseError → String
  | unexpected expected found =>
    s!"expected {Kind.choice expected}, found `{found.text}` {found.span.location}"
  | undeclared name span => s!"undeclared identifier `{name}` {span.location}"
  | exhausted expected =>
    s!"expected {Kind.choice expected}, but all tokens have already been processed"

/-- The message of a failed delivery. -/
def WriteError.message (e : WriteError) : String :=
  s!"failed to write {e.path}: {e.reason}"

namespace Error

/-- The name of the stage that failed. -/
def stage : Error → String
  | lex _ => "Lexer"
  | parse _ => "Parser"
  | write _ => "Backend"

/-- The message, which is that of the stage's own error. -/
def message : Error → String
  | lex e => e.message
  | parse e => e.message
  | write e => e.message

end Error

end Straightline
