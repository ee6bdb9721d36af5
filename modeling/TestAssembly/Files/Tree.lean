import TestAssembly.Files.Path

/-!
# File trees

A tree of directories and files. A file has a text, unless its bytes are not the encoding of one.
A path is followed step by step from a location, which is the list of names below the root: every
step asks that the place reached so far is a directory, a step to the parent leaves the directory
in which the walk is, and not the one that the path names.

What was put at a location is found there (`at?_put_self`), and what can be read is a file
(`isFile_of_read`).
-/

namespace TestAssembly.Files

/-- Why a file could not be read or written. -/
inductive FileFault where
  | notFound
  | notDirectory
  | isDirectory
  | nameTooLong
  | nulInName
  /-- The bytes of the file are not the encoding of a text. -/
  | notText
  /-- What else a file system may report. -/
  | other (message : String)
  deriving DecidableEq, Repr, Inhabited

/-- The message of a fault. -/
def FileFault.message : FileFault → String
  | notFound => "No such file or directory (os error 2)"
  | notDirectory => "Not a directory (os error 20)"
  | isDirectory => "Is a directory (os error 21)"
  | nameTooLong => "File name too long (os error 36)"
  | nulInName => "file name contained an unexpected NUL byte"
  | notText => "stream did not contain valid UTF-8"
  | other message => message

/-- **File tree**: a file with its text, if it has one, or a directory. -/
inductive FileTree where
  | file (text : Option String)
  | directory (entries : List (String × FileTree))
  deriving Inhabited

namespace FileTree

/-- The directory without entries. -/
def empty : FileTree := directory []

/-! ### Locations -/

/-- The entry of a name in a directory. -/
def entry? (name : String) : FileTree → Option FileTree
  | file _ => none
  | directory entries => (entries.find? (·.1 = name)).map Prod.snd

/-- What is at a location. -/
def at? : List String → FileTree → Option FileTree
  | [], tree => some tree
  | name :: rest, tree => (tree.entry? name).bind (at? rest)

/-- The entries of a directory. -/
def entries : FileTree → List (String × FileTree)
  | file _ => []
  | directory entries => entries

/-- The tree with a new node at a location; directories on the way are made, and files on the way
give way to them. -/
def put : FileTree → List String → FileTree → FileTree
  | _, [], node => node
  | tree, name :: rest, node =>
    let child := put ((tree.entry? name).getD empty) rest node
    directory ((name, child) :: tree.entries.filter (·.1 ≠ name))

/-- What was put at a location is found there. -/
theorem at?_put_self (tree : FileTree) (location : List String) (node : FileTree) :
    at? location (tree.put location node) = some node := by
  induction location generalizing tree with
  | nil => rfl
  | cons name rest ih => simp [put, at?, entry?, ih]

/-! ### Walks -/

/-- The greatest length of a name in bytes. -/
def maxNameLength : Nat := 255

/-- The greatest length of the text of a path in bytes. -/
def maxPathLength : Nat := 4095

/-- Follow one step from a location. -/
def step (tree : FileTree) (location : List String) (name : String) :
    Except FileFault (List String) :=
  match tree.at? location with
  | none => .error .notFound
  | some (file _) => .error .notDirectory
  | some (directory _) =>
    if Path.isIdle name then .ok location
    else if name = ".." then .ok location.dropLast
    else if maxNameLength < name.utf8ByteSize then .error .nameTooLong
    else .ok (location ++ [name])

/-- **Location that steps lead to** from a location. Nothing need be there. -/
def walk (tree : FileTree) (location : List String) : List String → Except FileFault (List String)
  | [] => .ok location
  | name :: rest =>
    match tree.step location name with
    | .ok next => tree.walk next rest
    | .error fault => .error fault

/-- **Location of a path** as seen from a directory. -/
def locate (tree : FileTree) (directory : List String) (path : Path) :
    Except FileFault (List String) :=
  if path.text.toList.any (· = '\x00') then .error .nulInName
  else if maxPathLength < path.text.utf8ByteSize then .error .nameTooLong
  else
    match path.anchor, path.steps with
    | .unwritten, [] => .error .notFound
    | .root, steps => tree.walk [] steps
    | .here, steps | .unwritten, steps => tree.walk directory steps

/-! ### Files -/

/-- **Text of the file at a path.** -/
def read (tree : FileTree) (directory : List String) (path : Path) : Except FileFault String :=
  match tree.locate directory path with
  | .error fault => .error fault
  | .ok location =>
    match tree.at? location with
    | none => .error .notFound
    | some (FileTree.directory _) => .error .isDirectory
    | some (file none) => .error .notText
    | some (file (some text)) => .ok text

/-- Whether a file is at a path. -/
def isFile (tree : FileTree) (directory : List String) (path : Path) : Bool :=
  match tree.locate directory path with
  | .error _ => false
  | .ok location =>
    match tree.at? location with
    | some (file _) => true
    | _ => false

/-- **The tree with a text at a path.** A file is made or replaced, a directory is not. -/
def write (tree : FileTree) (directory : List String) (path : Path) (text : String) :
    Except FileFault FileTree :=
  match tree.locate directory path with
  | .error fault => .error fault
  | .ok location =>
    match tree.at? location with
    | some (FileTree.directory _) => .error .isDirectory
    | _ => .ok (tree.put location (file (some text)))

/-- What can be read is a file. -/
theorem isFile_of_read {tree : FileTree} {directory : List String} {path : Path} {text : String}
    (h : tree.read directory path = .ok text) : tree.isFile directory path = true := by
  rw [read] at h
  rw [isFile]
  split at h
  · exact absurd h (by simp)
  · split at h <;> simp_all

end FileTree

end TestAssembly.Files
