import Straightline.Files.Basic

/-!
# File trees

A file tree is a file system as a value: files and folders below a root, and the folder that a
program works in. It serves as the files that a program reads and writes when no effect is wanted.

A path is followed segment by segment, from the root if it starts with a slash and from the working
folder otherwise. Every segment but the last has to be a folder. The last one names a file to be
read or written, unless a slash follows it or it stands for a folder itself. The root is the folder
above itself, so a path can go up any number of times.
-/

namespace Straightline

/-- The content of a file. -/
abbrev Bytes := Array UInt8

/-- What can stand at a place of a file tree. -/
inductive Entry where
  | folder
  | file (content : Bytes)
deriving DecidableEq, Repr

/-- A place in a file tree: the names of the folders that lead there from the root, and its own
name. -/
abbrev Place := List String

/-- Files and folders, each with its place, and a working folder. -/
structure FileTree where
  /-- What stands below the root, at any depth. -/
  entries : List (Place × Entry)
  /-- The working folder. -/
  home : Place
deriving DecidableEq, Repr

namespace FileTree

/-- What stands at a place. The root is the folder at the empty place. -/
def lookup (tree : FileTree) : Place → Option Entry
  | [] => some .folder
  | place => (tree.entries.find? (·.1 == place)).map (·.2)

/-- Puts an entry at a place, instead of what stands there. -/
def put (tree : FileTree) (place : Place) (entry : Entry) : FileTree :=
  { tree with entries := (place, entry) :: tree.entries.filter (·.1 != place) }

/-- What has been put at a place stands there. -/
theorem lookup_put_self (tree : FileTree) {place : Place} (h : place ≠ []) (entry : Entry) :
    (tree.put place entry).lookup place = some entry := by
  obtain ⟨name, names, rfl⟩ := List.exists_cons_of_ne_nil h
  simp [put, lookup]

/-- Putting an entry at a place leaves the other places as they are. -/
theorem lookup_put_of_ne (tree : FileTree) {place other : Place} (h : other ≠ place)
    (entry : Entry) : (tree.put place entry).lookup other = tree.lookup other := by
  cases other with
  | nil => rfl
  | cons name names =>
    have hne : (place == name :: names) = false := by simpa using fun he => h he.symm
    simp only [put, lookup, List.find?_cons, hne, List.find?_filter]
    congr 2
    funext old
    -- An entry at the other place is not among those that are taken out.
    by_cases hold : old.1 = name :: names <;> simp [hold, h]

/-- Makes the folders on the way from a place, so far as nothing stands there. -/
def makeFolders (tree : FileTree) (here : Place) : List String → FileTree
  | [] => tree
  | name :: others =>
    let place := here ++ [name]
    let tree' := if (tree.lookup place).isSome then tree else tree.put place .folder
    tree'.makeFolders place others

/-- Makes a folder and the folders above it, so far as nothing stands there. -/
def makeFolder (tree : FileTree) (place : Place) : FileTree :=
  tree.makeFolders [] place

/-- Puts a file at a place, and makes the folders above it. -/
def putFile (tree : FileTree) (place : Place) (content : Bytes) : FileTree :=
  (tree.makeFolder place.dropLast).put place (.file content)

/-- The tree of a working folder that holds nothing. -/
def ofHome (home : Place) : FileTree :=
  (⟨[], home⟩ : FileTree).makeFolder home

/-- The files with their places and contents. -/
def files (tree : FileTree) : List (Place × Bytes) :=
  tree.entries.filterMap fun
    | (place, .file content) => some (place, content)
    | (_, .folder) => none

/-- The files that are not in `before` with the same content. -/
def changesSince (tree before : FileTree) : List (Place × Bytes) :=
  tree.files.filter fun (place, content) => before.lookup place ≠ some (.file content)

/-- Those of some files that lie below the working folder, with their places as seen from there. -/
def fromHome (tree : FileTree) (files : List (Place × Bytes)) : List (Place × Bytes) :=
  files.filterMap fun (place, content) =>
    if tree.home.isPrefixOf place then some (place.drop tree.home.length, content) else none

/-- The greatest number of bytes in a name. -/
def nameLimit : Nat := 255

/-- The greatest number of bytes in a path. -/
def pathLimit : Nat := 4095

/-- Looks for a name in a folder. -/
def find (tree : FileTree) (place : Place) (name : String) : Except Fault (Option Entry) :=
  if name.utf8ByteSize > nameLimit then .error .nameTooLong
  else .ok (tree.lookup (place ++ [name]))

/-- Follows segments from a place through folders. -/
def follow (tree : FileTree) (here : Place) : List String → Except Fault Place
  | [] => .ok here
  | "." :: others => tree.follow here others
  | ".." :: others => tree.follow here.dropLast others
  | name :: others => do
    match ← tree.find here name with
    | some .folder => tree.follow (here ++ [name]) others
    | some (.file _) => .error .notFolder
    | none => .error .notFound

/-- Where a path leads, so far as its own form tells. -/
inductive Target where
  /-- To a name in a folder; `slash` says whether a slash follows the name. -/
  | named (folder : Place) (name : String) (slash : Bool)
  /-- To a folder: the path consists of slashes, or its last segment is one or two dots. -/
  | folder
deriving DecidableEq, Repr

/-- Follows a path up to its last segment. -/
def locate (tree : FileTree) (path : Path) : Except Fault Target :=
  if path.text = "" then .error .notFound
  else if path.text.utf8ByteSize > pathLimit then .error .nameTooLong
  else do
    let steps := path.segments.filter (· ≠ "")
    let start := if path.text.toList.head? = some '/' then [] else tree.home
    let here ← tree.follow start steps.dropLast
    match steps.getLast? with
    | none | some "." | some ".." => return .folder
    | some name => return .named here name (path.text.toList.getLast? == some '/')

/-- The text of the file at a path. -/
def read (tree : FileTree) (path : Path) : Except Fault String := do
  match ← tree.locate path with
  | .folder => .error .isFolder
  | .named folder name slash =>
    match ← tree.find folder name with
    | none => .error .notFound
    | some .folder => .error .isFolder
    | some (.file content) =>
      if slash then .error .notFolder
      else match String.fromUTF8? ⟨content⟩ with
        | some text => .ok text
        | none => .error .notText

/-- The tree with a text in the file at a path. No file is made at a path that ends in a slash. -/
def write (tree : FileTree) (path : Path) (text : String) : Except Fault FileTree := do
  match ← tree.locate path with
  | .folder | .named _ _ true => .error .isFolder
  | .named folder name false =>
    match ← tree.find folder name with
    | some .folder => .error .isFolder
    | _ => return tree.put (folder ++ [name]) (.file text.toUTF8.data)

/-- Access to a file tree that is kept as a state. A write that fails leaves it as it is. -/
def access : Files (StateM FileTree) where
  read path := do return (← get).read path
  write path text := do
    match (← get).write path text with
    | .ok tree => set tree; return .ok ()
    | .error fault => return .error fault

end FileTree

end Straightline
