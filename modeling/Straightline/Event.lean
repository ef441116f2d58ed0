import Straightline.Program.Parse
import Straightline.Text.Quoted
import Straightline.Token.Scan

/-!
# Events

A compilation keeps an account of what it does: a list of events, each with a level of severity
and a message.
-/

namespace Straightline

/-- Levels of severity. -/
inductive Level where
  | warn
  | info
  | debug
  | trace
deriving DecidableEq, Repr

namespace Level

/-- The place of a level in the order of severity, the most severe first. -/
def rank : Level → Nat
  | warn => 0
  | info => 1
  | debug => 2
  | trace => 3

/-- The level as a log writes it. -/
def label : Level → String
  | warn => "WARN"
  | info => "INFO"
  | debug => "DEBUG"
  | trace => "TRACE"

end Level

/-- The policy as a log writes it. -/
def Policy.label : Policy → String
  | longest => "LongestMatch"
  | first => "FirstMatch"

/-- Something that a compilation does. -/
inductive Event where
  /-- A token has been found. -/
  | token (t : Token)
  /-- The whole text has been cut into `count` tokens. -/
  | lexed (count : Nat) (policy : Policy)
  /-- A name has been declared again. -/
  | redeclared (r : Parse.Redeclaration)
  /-- The tokens have been read as a program with so many statements and variables. -/
  | parsed (statements declared : Nat)
  /-- A body of so many bytes has been made, with so many variables. -/
  | generated (bytes declared : Nat)
  /-- A file has been written. -/
  | wrote (path : String)
deriving DecidableEq, Repr

namespace Event

/-- How severe an event is. -/
def level : Event → Level
  | token _ => .trace
  | lexed _ _ | parsed _ _ | generated _ _ => .debug
  | redeclared _ => .warn
  | wrote _ => .info

/-- What a log says of an event. -/
def message : Event → String
  | token t =>
    s!"token {t.kind.label} {quoted t.text} at {t.span.line}:{t.span.column}"
  | lexed count policy => s!"lexed {count} tokens ({policy.label})"
  | redeclared r =>
    s!"`{r.declared.name}` redeclared as {r.declared.type.keyword}, " ++
      s!"keeping the earlier {r.kept.keyword} declaration"
  | parsed statements declared =>
    s!"parsed {statements} statements, {declared} variables declared"
  | generated bytes declared => s!"generated {bytes} bytes for {declared} variables"
  | wrote path => s!"wrote {path}"

end Event

/-- The events that are at least as severe as `level`. -/
def Level.filter (level : Level) (events : List Event) : List Event :=
  events.filter fun event => event.level.rank ≤ level.rank

end Straightline
