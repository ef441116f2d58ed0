import Straightline.Event
import Straightline.Java.Body

/-!
# Compilation

A source text is cut into tokens, the tokens are read as a program, and the program is written as
the body of a Java method. The first stage that fails ends the compilation with its error.
-/

namespace Straightline

/-- The program that a source text makes. -/
def readProgram (policy : Policy) (source : String) : Except Error Program := do
  let tokens ← (tokenize policy source).mapError .lex
  (parse tokens).mapError .parse

/-- The body of the Java method for a source text. -/
def compile (policy : Policy) (source : String) : Except Error String := do
  let program ← readProgram policy source
  return Java.body program

/-- The events of writing a program. -/
def writingEvents (program : Program) : List Event :=
  let emission := Java.emitBody program
  [.generated emission.text.utf8ByteSize emission.scope.size]

/-- The events of reading tokens as a program, and of writing it if there is one. -/
def parsingEvents (tokens : List Token) : List Event :=
  let reading := Parse.read tokens
  let state := reading.state
  state.redeclarationsHere.map .redeclared ++
    match reading.error with
    | some _ => []
    | none => .parsed state.statements.length state.scope.size :: writingEvents state.statements

/-- The events of a compilation. -/
def compileEvents (policy : Policy) (source : String) : List Event :=
  let result := scan policy source
  result.tokens.map .token ++
    match result.stuck with
    | some _ => []
    | none => .lexed result.tokens.length policy :: parsingEvents result.tokens

end Straightline
