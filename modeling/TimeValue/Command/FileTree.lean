import TimeValue.Command.Reading

/-!
# Files held in memory

A tree of files stands in for those of a system, so that a run can be carried out without one.
A path is followed from the root, or from a working directory, name by name.  Each name is looked
up in a directory; an empty name and a single dot stay there, and two dots go back up.

## Main definitions

* `FileTree` — files and directories, by the names that lead to them from the root.
* `FileTree.follow` — what the names of a path lead to.
* `FileTree.read` — what the reading of the file at a path comes to.
-/

namespace TimeValue.Command

/-- What stands at a place in a tree. -/
inductive Entry
  /-- A file with these bytes. -/
  | file (content : List UInt8)
  /-- A directory. -/
  | directory
  deriving DecidableEq, Repr

/-- What reading an entry comes to.  A directory can be opened, but not read. -/
def Entry.read : Entry → Reading
  | .file content => .bytes content
  | .directory => .unreadable .isDirectory

/-- Files and directories, by the names that lead to them from the root.  What leads to one of
them is a directory, and so is the root. -/
structure FileTree where
  /-- The files, with their bytes. -/
  files : List (List String × List UInt8)
  /-- Directories that need not hold any file. -/
  directories : List (List String)
  deriving Repr

namespace FileTree

/-- How many bytes a name in a path may have. -/
def longestName : Nat := 255

/-- How many bytes a path may have. -/
def longestPath : Nat := 4095

/-- What stands at a place. -/
def entry? (tree : FileTree) (place : List String) : Option Entry :=
  match tree.files.lookup place with
  | some content => some (.file content)
  | none =>
    let known := [] :: tree.directories ++ tree.files.map (·.1)
    if known.any place.isPrefixOf then some .directory else none

/-- What names lead to from a place. -/
def follow (tree : FileTree) (place : List String) : List String → Except FileFault Entry
  | [] =>
    match tree.entry? place with
    | none => .error .missing
    | some entry => .ok entry
  | name :: names =>
    match tree.entry? place with
    | none => .error .missing
    | some (.file _) => .error .notDirectory
    | some .directory =>
      if name = "" ∨ name = "." then tree.follow place names
      else if name = ".." then tree.follow place.dropLast names
      else if longestName < name.utf8ByteSize then .error .nameTooLong
      else tree.follow (place ++ [name]) names

/-- The names of a path. -/
def namesOf (path : String) : List String :=
  (path.toList.splitOn '/').map String.ofList

/-- What the reading of the file at a path comes to.  A path that does not start at the root starts
at the working directory. -/
def read (tree : FileTree) (working : List String) (path : String) : Reading :=
  if path = "" then .closed .missing
  else if longestPath < path.utf8ByteSize then .closed .nameTooLong
  else
    let start := if path.toList.head? = some '/' then [] else working
    match tree.follow start (namesOf path) with
    | .error fault => .closed fault
    | .ok entry => entry.read

/-- A file is found by its name, by a detour and from the root; a name after it leads nowhere. -/
example :
    let tree : FileTree := ⟨[(["work", "a"], [1])], []⟩
    ["a", "./a", "../work//a", "/work/a", "a/", "a/..", "b", "b/..", ".", "/"].map
        (tree.read ["work"]) =
      [.bytes [1], .bytes [1], .bytes [1], .bytes [1], .closed .notDirectory,
        .closed .notDirectory, .closed .missing, .closed .missing,
        .unreadable .isDirectory, .unreadable .isDirectory] := by
  decide +kernel

end FileTree

end TimeValue.Command
