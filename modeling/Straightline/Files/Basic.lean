import Straightline.Files.Path

/-!
# Files

What a program can do with files: read one as text, and write a text to one. Each can fail, for a
reason that has a fixed wording.
-/

namespace Straightline

/-- Why a file could not be read or written. -/
inductive Fault where
  /-- There is nothing at the path. -/
  | notFound
  /-- The path goes through a file as if it were a folder. -/
  | notFolder
  /-- There is a folder where a file is needed. -/
  | isFolder
  /-- The path, or a name in it, is longer than the system allows. -/
  | nameTooLong
  /-- The bytes of the file are no text in UTF-8. -/
  | notText
  /-- Another reason, with its wording. -/
  | other (reason : String)
deriving DecidableEq, Repr

/-- The wording of a reason, with the number that the system gives it. -/
def Fault.message : Fault → String
  | notFound => "No such file or directory (os error 2)"
  | notFolder => "Not a directory (os error 20)"
  | isFolder => "Is a directory (os error 21)"
  | nameTooLong => "File name too long (os error 36)"
  | notText => "stream did not contain valid UTF-8"
  | other reason => reason

/-- Access to files by effects in `m`. -/
structure Files (m : Type → Type) where
  /-- The text of the file at a path. -/
  read : Path → m (Except Fault String)
  /-- Puts a text into the file at a path; the file is made if there is none. -/
  write : Path → String → m (Except Fault Unit)

end Straightline
