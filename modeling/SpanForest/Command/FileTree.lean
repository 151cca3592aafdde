import SpanForest.Command.Path
import SpanForest.SystemFault

/-! # Directory trees

    The files below a working directory, as they are at one moment, and what
    the operating system answers to opening a path among them.

    * **`FileTree.add`**: puts a file or a directory into the tree, together
      with the directories on the way. A file takes the place of one that is
      there already.
    * **`FileTree.openFile`**: follows a path name by name. Each name but the
      last must be that of a directory.

    Nothing is known of what lies outside the working directory, other than
    the directories above it.
-/

namespace SpanForest

/-- What is read from a path that has been opened. -/
inductive Opened where
  /-- The content of a file. -/
  | content (bytes : List UInt8)
  /-- A fault at the first attempt to read. -/
  | unreadable (fault : SystemFault)
deriving DecidableEq

/-- A member of a directory tree. -/
inductive FileEntry where
  /-- A file with its content. -/
  | file (content : List UInt8)
  /-- A directory. -/
  | directory
deriving DecidableEq

/-- The files and directories below a working directory, each with the names
    that lead to it. -/
structure FileTree where
  /-- The members. One that stands in front hides those of the same names
      behind it. -/
  entries : List (List (List UInt8) × FileEntry) := []
deriving DecidableEq

namespace FileTree

/-- The longest name of a file. -/
def longestName : Nat := 255

/-- The longest path. -/
def longestPath : Nat := 4095

/-- The member that the given names lead to. The working directory itself is
    a member. -/
def entry? (tree : FileTree) : List (List UInt8) → Option FileEntry
  | [] => some .directory
  | names => tree.entries.lookup names

/-- Puts a member at the end of the given names. A directory is put only where
    nothing is, and a file not where a directory is. -/
def addAt (tree : FileTree) (names : List (List UInt8)) (entry : FileEntry) : FileTree :=
  match entry, tree.entry? names with
  | .directory, some _ | .file _, some .directory => tree
  | _, _ => ⟨(names, entry) :: tree.entries⟩

/-- The ways to the directories that contain what the given names lead to,
    the outermost first. -/
def enclosing (names : List (List UInt8)) : List (List (List UInt8)) :=
  (List.range names.length).map names.take

/-- Puts a member at the end of a path, and directories on the way. -/
def add (tree : FileTree) (path : List UInt8) (entry : FileEntry) : FileTree :=
  let names := Path.steps path
  ((enclosing names).foldl (fun t way => t.addAt way .directory) tree).addAt names entry

/-- A place in the file system as seen from the working directory. -/
inductive Place where
  /-- Below the working directory, at the end of the given names. -/
  | inside (names : List (List UInt8))
  /-- So many directories above the working directory. -/
  | above (levels : Nat)
deriving DecidableEq

/-- What stands at a place. -/
def at? (tree : FileTree) : Place → Option FileEntry
  | .inside names => tree.entry? names
  | .above _ => some .directory

/-- The place that a name leads to from a directory. Outside the working
    directory only the directories above are known. -/
def follow (place : Place) (name : List UInt8) : Option Place :=
  match place with
  | .inside names =>
    if name = Path.up then
      if names.isEmpty then some (.above 1) else some (.inside names.dropLast)
    else some (.inside (names ++ [name]))
  | .above levels => if name = Path.up then some (.above (levels + 1)) else none

/-- Follows names one by one from a place that exists. -/
def walk (tree : FileTree) (place : Place) : List (List UInt8) → Except SystemFault FileEntry
  | [] =>
    match tree.at? place with
    | some entry => .ok entry
    | none => .error .noSuchFile
  | name :: rest =>
    match tree.at? place with
    | none => .error .noSuchFile
    | some (.file _) => .error .notADirectory
    | some .directory =>
      if longestName < name.length then .error .nameTooLong
      else match follow place name with
        | some next => walk tree next rest
        | none => .error .noSuchFile

/-- The place at which a path begins. The root lies above the working
    directory. -/
def origin (path : List UInt8) : Place :=
  if Path.isAbsolute path then .above 0 else .inside []

/-- Opens a path. A directory can be opened, and then cannot be read. -/
def openFile (tree : FileTree) (path : List UInt8) : Except SystemFault Opened :=
  if path.contains 0 then .error .nullInName
  else if path.isEmpty then .error .noSuchFile
  else if longestPath < path.length then .error .nameTooLong
  else match tree.walk (origin path) (Path.steps path) with
    | .error fault => .error fault
    | .ok .directory => .ok (.unreadable .isADirectory)
    | .ok (.file bytes) =>
      if Path.namesDirectory path then .error .notADirectory else .ok (.content bytes)

end FileTree

end SpanForest
