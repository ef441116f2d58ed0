import Straightline.Files.Path
import Straightline.Token.Scan

/-!
# Options

The arguments of the command: one source file, and options before or behind it.

* `-o` or `--output` takes a value, which is the next argument or stands right behind the option,
  with `=` between them or not. A next argument that looks like an option is no value.
* `--first-match` and `--print` take none. A value attached to them with `=` is ignored.
* `--` ends the options: all further arguments are files.

Each option can be given once.
-/

namespace Straightline

/-- What the command is asked to do. -/
structure Options where
  /-- The source file. -/
  input : Path
  /-- The file to be written, if it is given. -/
  output : Option Path
  /-- How to choose among lexical rules. -/
  policy : Policy
  /-- Whether to print the body instead of writing a file. -/
  print : Bool
deriving DecidableEq, Repr

/-- Why arguments cannot be understood. -/
inductive UsageError where
  /-- There is no such option. -/
  | unknown (argument : String)
  /-- An option that takes a value has none. -/
  | missingValue
  /-- An option is given twice. -/
  | repeated (argument : String)
  /-- There is a second file. -/
  | extraInput (argument : String)
  /-- There is no file. -/
  | missingInput
deriving DecidableEq, Repr

/-- The message of a usage error. -/
def UsageError.message : UsageError → String
  | unknown argument => s!"unknown option {argument}"
  | missingValue => "option --output needs a value"
  | repeated argument => s!"option {argument} is given twice"
  | extraInput argument => s!"unexpected argument {argument}"
  | missingInput => "no input file is given"

namespace Options

/-- What an argument is by its looks. -/
inductive Argument where
  /-- A file. -/
  | input
  /-- The option for the file to be written, with its value if that is attached. -/
  | output (value : Option String)
  /-- The option for the policy. -/
  | firstMatch
  /-- The option for printing. -/
  | print
  /-- The mark that ends the options. -/
  | endOfOptions
  /-- An option that does not exist. -/
  | unknown
deriving DecidableEq, Repr

/-- An attached value without the equality signs in front of it. -/
def attachedValue (cs : List Char) : String :=
  String.ofList (cs.dropWhile (· == '='))

/-- Classifies the characters of an argument. -/
def Argument.ofChars : List Char → Argument
  | ['-', '-'] => endOfOptions
  | '-' :: '-' :: cs =>
    let long := cs.dropWhile (· == '-')
    let value := long.dropWhile (· != '=')
    match String.ofList (long.takeWhile (· != '=')) with
    | "output" => output (if value = [] then none else some (attachedValue value))
    | "first-match" => firstMatch
    | "print" => print
    | _ => unknown
  | ['-', 'o'] => output none
  | '-' :: 'o' :: value => output (some (attachedValue value))
  | '-' :: _ :: _ => unknown
  | _ => input

/-- The options that have been read. -/
structure Draft where
  input : Option Path := none
  output : Option Path := none
  firstMatch : Bool := false
  print : Bool := false
deriving DecidableEq, Repr

namespace Draft

/-- Adds a file. -/
def addInput (draft : Draft) (argument : String) : Except UsageError Draft :=
  if draft.input.isSome then .error (.extraInput argument)
  else .ok { draft with input := some ⟨argument⟩ }

/-- Adds the file to be written. -/
def addOutput (draft : Draft) (argument value : String) : Except UsageError Draft :=
  if draft.output.isSome then .error (.repeated argument)
  else .ok { draft with output := some ⟨value⟩ }

/-- Adds the option for the policy. -/
def addFirstMatch (draft : Draft) (argument : String) : Except UsageError Draft :=
  if draft.firstMatch then .error (.repeated argument)
  else .ok { draft with firstMatch := true }

/-- Adds the option for printing. -/
def addPrint (draft : Draft) (argument : String) : Except UsageError Draft :=
  if draft.print then .error (.repeated argument)
  else .ok { draft with print := true }

/-- Reads arguments. -/
def read (draft : Draft) : List String → Except UsageError Draft
  | [] => .ok draft
  | argument :: arguments =>
    match Argument.ofChars argument.toList with
    | .input => do (← draft.addInput argument).read arguments
    | .firstMatch => do (← draft.addFirstMatch argument).read arguments
    | .print => do (← draft.addPrint argument).read arguments
    | .endOfOptions => arguments.foldlM addInput draft
    | .unknown => .error (.unknown argument)
    | .output (some value) => do (← draft.addOutput argument value).read arguments
    | .output none =>
      match arguments with
      | [] => .error .missingValue
      | value :: others =>
        if Argument.ofChars value.toList = .input then do
          (← draft.addOutput argument value).read others
        else .error .missingValue

/-- The options, once all arguments have been read. -/
def finish (draft : Draft) : Except UsageError Options :=
  match draft.input with
  | none => .error .missingInput
  | some input =>
    .ok ⟨input, draft.output, if draft.firstMatch then .first else .longest, draft.print⟩

end Draft

/-- The options that arguments ask for. -/
def ofArguments (arguments : List String) : Except UsageError Options := do
  (← Draft.read {} arguments).finish

end Options

end Straightline
