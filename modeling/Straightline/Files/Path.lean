/-!
# Paths

A path is a text in which slashes separate segments. An empty segment or a single dot stands for the
folder that the path has reached, so several slashes count as one, and a slash at the end does not
change the name of what the path leads to.
-/

namespace Straightline

/-- A path to a file or folder. -/
structure Path where
  text : String
deriving DecidableEq, Repr

namespace Path

/-- What stands between the slashes. -/
def segments (path : Path) : List String :=
  (path.text.toList.splitOn '/').map String.ofList

/-- Whether a segment leads nowhere. -/
def isIdle (segment : String) : Bool :=
  segment == "" || segment == "."

/-- Drops the segments at the end that lead nowhere. -/
def trimIdle (segments : List String) : List String :=
  (segments.reverse.dropWhile isIdle).reverse

/-- The name of what the path leads to: its last segment that leads somewhere, unless that goes up
to the folder above. -/
def fileName? (path : Path) : Option String :=
  match (trimIdle path.segments).getLast? with
  | some ".." => none
  | name => name

/-- What stands behind the last dot of a name, if something stands before that dot. -/
def extensionOf? (name : String) : Option String :=
  let reversed := name.toList.reverse
  match reversed.dropWhile (· != '.') with
  | _ :: _ :: _ => some (String.ofList (reversed.takeWhile (· != '.')).reverse)
  | _ => none

/-- The extension of the name of what the path leads to. -/
def extension? (path : Path) : Option String :=
  path.fileName?.bind extensionOf?

/-- Drops the segments at the end that lead nowhere, but keeps the first one: it says whether the
path starts at the root or at the current folder. -/
def trimFolder : List String → List String
  | [] => []
  | first :: others => first :: trimIdle others

/-- The path to `name` in the folder of what the path leads to. -/
def sibling (path : Path) (name : String) : Path :=
  let folder := trimFolder (trimIdle path.segments).dropLast
  ⟨"/".intercalate (folder ++ [name])⟩

end Path

end Straightline
