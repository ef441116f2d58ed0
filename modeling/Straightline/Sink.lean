import Straightline.Compile
import Straightline.Files.Basic
import Straightline.Java.ClassFile

/-!
# Sinks

A sink takes the bodies that compilations produce. It is offered the body of each compilation that
succeeds, once, and nothing when a compilation fails.
-/

namespace Straightline

/-- A taker of bodies, by effects in `m`. -/
structure Sink (m : Type → Type) where
  /-- Takes a body, and tells what it has done with it. -/
  accept : String → m (Except WriteError (List Event))

/-- How a compilation into a sink went. -/
structure Report where
  /-- What has been done. -/
  events : List Event
  /-- Whether it succeeded. -/
  result : Except Error Unit

/-- Compiles a source text and hands the body to a sink. -/
def compileInto {m : Type → Type} [Monad m] (sink : Sink m) (policy : Policy) (source : String) :
    m Report := do
  let events := compileEvents policy source
  match compile policy source with
  | .error e => return ⟨events, .error e⟩
  | .ok body =>
    match ← sink.accept body with
    | .ok further => return ⟨events ++ further, .ok ()⟩
    | .error e => return ⟨events, .error (.write e)⟩

namespace Sink

/-- Keeps the last body. -/
def memory : Sink (StateM (Option String)) where
  accept body := do
    set (some body)
    return .ok []

/-- Counts the bodies, and answers each with the given verdict. -/
def counting (verdict : Except WriteError Unit) : Sink (StateM Nat) where
  accept _ := do
    modify (· + 1)
    return verdict.map fun _ => []

/-- Writes each body, as the entry point of a class, to the file at a path. -/
def classFile {m : Type → Type} [Monad m] (files : Files m) (path : Path) : Sink m where
  accept body := do
    match ← files.write path (Java.classFile body) with
    | .ok _ => return .ok [.wrote path.text]
    | .error fault => return .error ⟨path.text, fault.message⟩

end Sink

end Straightline
