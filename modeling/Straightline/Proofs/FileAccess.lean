import Mathlib
import Straightline.Files.Tree

/-!
# What is known of files

`Files.Faithful` says what access to files has to do, whatever the files are: reading gives the text
of a file and changes nothing, writing either puts a text into one file or changes nothing at all.
Which file a path leads to, and what the files hold, is told by a `FileView` of the state.

Main statement: `FileTree.faithful_access`, by which file trees behave so.
-/

namespace Straightline

/-- What can be seen of files that are kept in a state. -/
structure FileView (State File : Type) where
  /-- The file that a path leads to. -/
  file? : State → Path → Option File
  /-- The bytes that a file holds, if it exists. -/
  content? : State → File → Option Bytes

namespace FileView

variable {State File : Type} (view : FileView State File)

/-- The path leads to a file that holds the text. -/
def Holds (s : State) (path : Path) (text : String) : Prop :=
  ∃ file, view.file? s path = some file ∧ view.content? s file = some text.toUTF8.data

/-- Behind `s`, the text has been put into the file that the path leads to, and into no other. -/
def Wrote (s s' : State) (path : Path) (text : String) : Prop :=
  ∃ file, view.file? s' path = some file ∧ view.content? s' file = some text.toUTF8.data ∧
    ∀ other, other ≠ file → view.content? s' other = view.content? s other

theorem Wrote.holds {view : FileView State File} {s s' : State} {path : Path} {text : String}
    (h : view.Wrote s s' path text) : view.Holds s' path text := by
  obtain ⟨file, hfile, hcontent, -⟩ := h
  exact ⟨file, hfile, hcontent⟩

end FileView

/-- Access to files that are kept in a state does what it should. -/
structure Files.Faithful {State File : Type} (files : Files (StateM State))
    (view : FileView State File) : Prop where
  /-- Reading changes nothing. -/
  state_read (path : Path) (s : State) : ((files.read path).run s).2 = s
  /-- What is read is the text of the file. -/
  holds_of_read {path : Path} {s : State} {text : String}
    (h : ((files.read path).run s).1 = .ok text) : view.Holds s path text
  /-- Writing that fails changes nothing. -/
  state_write {path : Path} {text : String} {s : State} {fault : Fault}
    (h : ((files.write path text).run s).1 = .error fault) : ((files.write path text).run s).2 = s
  /-- Writing that succeeds puts the text into the file. -/
  wrote_of_write {path : Path} {text : String} {s : State}
    (h : ((files.write path text).run s).1 = .ok ()) :
    view.Wrote s ((files.write path text).run s).2 path text

/-- One computation behind another gives a value if both do. -/
theorem bind_eq_ok_iff {ε α β : Type} {x : Except ε α} {f : α → Except ε β} {b : β} :
    x >>= f = .ok b ↔ ∃ a, x = .ok a ∧ f a = .ok b := by
  cases x <;> simp [bind, Except.bind]

namespace FileTree

/-- What can be seen of a file tree: a file is known by its place. -/
def view : FileView FileTree Place where
  file? tree path :=
    match tree.locate path with
    | .ok (.named folder name false) => some (folder ++ [name])
    | _ => none
  content? tree place :=
    match tree.lookup place with
    | some (.file content) => some content
    | _ => none

theorem view_file?_eq {tree : FileTree} {path : Path} {folder : Place} {name : String}
    (h : tree.locate path = .ok (.named folder name false)) :
    view.file? tree path = some (folder ++ [name]) := by
  simp only [view, h]

theorem view_content?_eq {tree : FileTree} {place : Place} {content : Bytes}
    (h : tree.lookup place = some (.file content)) : view.content? tree place = some content := by
  simp only [view, h]

/-- Bytes that decode to a text are those of the text. -/
theorem data_toUTF8_of_fromUTF8? {content : Bytes} {text : String}
    (h : String.fromUTF8? ⟨content⟩ = some text) : text.toUTF8.data = content := by
  rw [String.fromUTF8?] at h
  split at h
  · obtain rfl := Option.some_inj.mp h
    rfl
  · cases h

variable {tree tree' : FileTree} {path : Path} {text : String}

theorem find_eq_ok_iff {place : Place} {name : String} {entry : Option Entry} :
    tree.find place name = .ok entry ↔
      name.utf8ByteSize ≤ nameLimit ∧ tree.lookup (place ++ [name]) = entry := by
  rw [find]
  split
  · next hlong => simp [Nat.not_le.mpr hlong]
  · next hshort => simp [Nat.not_lt.mp hshort]

theorem run_access_write (s : FileTree) :
    (access.write path text).run s =
      match s.write path text with
      | .ok tree => (.ok (), tree)
      | .error fault => (.error fault, s) := by
  cases h : s.write path text <;> simp [access, h] <;> rfl

/-- A text is read from the file that the path leads to. -/
theorem holds_of_read_eq_ok (h : tree.read path = .ok text) : view.Holds tree path text := by
  obtain ⟨target, hlocate, h⟩ := bind_eq_ok_iff.mp h
  cases target with
  | folder => cases h
  | named folder name slash =>
    obtain ⟨entry, hfind, h⟩ := bind_eq_ok_iff.mp h
    -- all entries but a file, with no slash behind its name, are faults
    match entry, slash, h with
    | some (.file content), false, h =>
      simp only [Bool.false_eq_true, if_false] at h
      split at h
      · next hdecode =>
        obtain rfl := Except.ok.inj h
        refine ⟨folder ++ [name], view_file?_eq hlocate, ?_⟩
        rw [data_toUTF8_of_fromUTF8? hdecode, view_content?_eq (find_eq_ok_iff.mp hfind).2]
      · cases h

/-- A text is written to a name in a folder, at which there is no folder. -/
theorem exists_named_of_write_eq_ok (h : tree.write path text = .ok tree') :
    ∃ folder name, tree.locate path = .ok (.named folder name false) ∧
      tree.lookup (folder ++ [name]) ≠ some .folder ∧
      tree' = tree.put (folder ++ [name]) (.file text.toUTF8.data) := by
  obtain ⟨target, hlocate, h⟩ := bind_eq_ok_iff.mp h
  match target, h with
  | .named folder name false, h =>
    obtain ⟨entry, hfind, h⟩ := bind_eq_ok_iff.mp h
    obtain ⟨-, rfl⟩ := find_eq_ok_iff.mp hfind
    refine ⟨folder, name, hlocate, ?_⟩
    split at h
    · cases h
    · next hentry => exact ⟨hentry, (Except.ok.inj h).symm⟩

section Folders

variable (hfolders : ∀ place, tree.lookup place = some .folder → tree'.lookup place = some .folder)

include hfolders

/-- A walk through folders stays possible as long as they stay. -/
theorem follow_eq_ok_of_folders {here there : Place} {segments : List String}
    (h : tree.follow here segments = .ok there) : tree'.follow here segments = .ok there := by
  fun_induction follow tree here segments with
  | case1 => exact h
  | case2 here others ih => exact ih h
  | case3 here others ih => exact ih h
  | case4 here name others hdot hdots ih =>
    -- the next segment is the name of a folder, for all else is a fault
    obtain ⟨entry, hfind, h⟩ := bind_eq_ok_iff.mp h
    match entry, h with
    | some .folder, h =>
      obtain ⟨hsize, hlookup⟩ := find_eq_ok_iff.mp hfind
      rw [follow, bind_eq_ok_iff]
      · exact ⟨some .folder, find_eq_ok_iff.mpr ⟨hsize, hfolders _ hlookup⟩, ih h⟩
      · exact hdot
      · exact hdots

/-- A path leads to the same place as long as the folders stay. -/
theorem locate_eq_ok_of_folders (hhome : tree'.home = tree.home) {target : Target}
    (h : tree.locate path = .ok target) : tree'.locate path = .ok target := by
  rw [locate] at h ⊢
  by_cases hempty : path.text = ""
  · simp [hempty] at h
  by_cases hlong : path.text.utf8ByteSize > pathLimit
  · simp [hempty, hlong] at h
  rw [if_neg hempty, if_neg hlong] at h ⊢
  obtain ⟨here, hfollow, h⟩ := bind_eq_ok_iff.mp h
  rw [hhome]
  exact bind_eq_ok_iff.mpr ⟨here, follow_eq_ok_of_folders hfolders hfollow, h⟩

end Folders

/-- A text is written to the file that the path leads to, and to no other. -/
theorem wrote_of_write_eq_ok (h : tree.write path text = .ok tree') :
    view.Wrote tree tree' path text := by
  obtain ⟨folder, name, hlocate, hentry, rfl⟩ := exists_named_of_write_eq_ok h
  have hne : folder ++ [name] ≠ [] := by simp
  have hfile := lookup_put_self tree hne (.file text.toUTF8.data)
  -- the file does not take the place of a folder, so the path leads to where it led
  have hfolders (place : Place) (hplace : tree.lookup place = some .folder) :
      (tree.put (folder ++ [name]) (.file text.toUTF8.data)).lookup place = some .folder := by
    rw [lookup_put_of_ne _ _, hplace]
    rintro rfl
    exact hentry hplace
  refine ⟨folder ++ [name], view_file?_eq (locate_eq_ok_of_folders hfolders rfl hlocate),
    view_content?_eq hfile, ?_⟩
  intro other hother
  simp only [view, lookup_put_of_ne tree hother]

/-- Access to a file tree does what it should. -/
theorem faithful_access : access.Faithful view where
  state_read path s := rfl
  holds_of_read h := holds_of_read_eq_ok h
  state_write {path text s fault} h := by
    rw [run_access_write] at h ⊢
    cases hwrite : s.write path text with
    | ok tree => simp [hwrite] at h
    | error fault => rfl
  wrote_of_write {path text s} h := by
    rw [run_access_write] at h ⊢
    cases hwrite : s.write path text with
    | ok tree => exact wrote_of_write_eq_ok hwrite
    | error fault => simp [hwrite] at h

end FileTree

end Straightline
