import Straightline.CommandLine.Options
import Straightline.Sink

/-!
# Running the command

The command compiles a source file, whose name has to end in `.txt`, and writes the class file next
to it or where an option says, or prints the body. Its status tells what happened: 0 for success, 1
for a compilation that failed, 2 for a source file that cannot be used.
-/

namespace Straightline

/-- What the command leaves behind, files apart. -/
structure Outcome where
  /-- The exit status. -/
  status : Nat
  /-- The text on standard output. -/
  output : String
  /-- The text on standard error. -/
  errors : String
deriving DecidableEq, Repr

namespace Outcome

/-- The extension that a source file has to have. -/
def sourceExtension : String := "txt"

/-- The name of the class file if no option gives one. -/
def defaultOutput : String := "Main.java"

/-- How to call the command. -/
def usage : String :=
  "Usage: cplusminus <input.txt> [-o <Main.java>] [--first-match] [--print]"

/-- The source file has the wrong extension. -/
def wrongExtension : Outcome :=
  ⟨2, "", usage ++ "\n"⟩

/-- The source file cannot be read. -/
def unreadable (path : Path) (fault : Fault) : Outcome :=
  ⟨2, "", s!"Failed to read input file {path.text}: {fault.message}\n"⟩

/-- The compilation failed. -/
def failed (e : Error) : Outcome :=
  ⟨1, "", s!"{e.stage} error!\n{e.message}\n"⟩

/-- The body has been printed. -/
def printed (body : String) : Outcome :=
  ⟨0, body ++ "\n", ""⟩

/-- The class file has been written. -/
def written : Outcome :=
  ⟨0, "", ""⟩

end Outcome

/-- The file that the options say to write. -/
def Options.target (options : Options) : Path :=
  options.output.getD (options.input.sibling Outcome.defaultOutput)

/-- Compiles a source text as the options say. -/
def Options.process {m : Type → Type} [Monad m] (options : Options) (files : Files m)
    (source : String) : m Outcome := do
  if options.print then
    match compile options.policy source with
    | .ok body => return .printed body
    | .error e => return .failed e
  else
    let report ← compileInto (Sink.classFile files options.target) options.policy source
    match report.result with
    | .ok _ => return .written
    | .error e => return .failed e

/-- Runs the command. -/
def Options.run {m : Type → Type} [Monad m] (options : Options) (files : Files m) : m Outcome := do
  if options.input.extension? = some Outcome.sourceExtension then
    match ← files.read options.input with
    | .ok source => options.process files source
    | .error fault => return .unreadable options.input fault
  else
    return .wrongExtension

end Straightline
