import Straightline.CommandLine.Run

/-!
# The command

Connects the command to the arguments, files and streams of the system.
-/

namespace Straightline

/-- The number and the wording that the system gives to an error. -/
def describe? : IO.Error → Option (UInt32 × String)
  | .noFileOrDirectory _ code details | .inappropriateType _ code details
  | .permissionDenied _ code details | .invalidArgument _ code details
  | .resourceExhausted _ code details | .noSuchThing _ code details
  | .otherError code details | .hardwareFault code details => some (code, details)
  | _ => none

/-- The reason that an error of the system stands for. -/
def faultOf (e : IO.Error) : Fault :=
  match describe? e with
  | some (2, _) => .notFound
  | some (20, _) => .notFolder
  | some (21, _) => .isFolder
  | some (36, _) => .nameTooLong
  | some (code, details) => .other s!"{details} (os error {code})"
  | none => .other (toString e)

/-- The bytes of a file. -/
def readBytes (path : Path) : IO ByteArray := do
  let handle ← IO.FS.Handle.mk path.text .read
  handle.readBinToEnd

/-- Access to the files of the system. -/
def systemFiles : Files IO where
  read path := do
    match ← (readBytes path).toBaseIO with
    | .ok bytes =>
      match String.fromUTF8? bytes with
      | some text => return .ok text
      | none => return .error .notText
    | .error e => return .error (faultOf e)
  write path text := do
    match ← (IO.FS.writeFile path.text text).toBaseIO with
    | .ok _ => return .ok ()
    | .error e => return .error (faultOf e)

end Straightline

open Straightline in
/-- Runs the command with the given arguments. -/
def main (arguments : List String) : IO UInt32 := do
  match Options.ofArguments arguments with
  | .error e =>
    IO.eprintln s!"error: {e.message}\n{Outcome.usage}"
    return 1
  | .ok options =>
    let outcome ← options.run systemFiles
    IO.print outcome.output
    IO.eprint outcome.errors
    return outcome.status.toUInt32
