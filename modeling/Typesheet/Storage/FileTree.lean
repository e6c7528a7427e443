import Typesheet.Text.Bytes

/-!
Contract: a tree of files and directories below a root.

Owns: walking, reading, writing, deleting and making directories, with the
refusals of each.  Names are case-sensitive and hold at most 255 bytes, none of
them zero.
-/

set_option autoImplicit false

namespace Typesheet

/-- The names on the way from the root. -/
abbrev Path := List Text

inductive FileNode where
  | file (content : ByteArray)
  | directory

/-- Two files are the same when their bytes are. -/
instance : DecidableEq FileNode
  | .file content, .file content' =>
      decidable_of_iff (content.data = content'.data)
        ⟨fun same => congrArg FileNode.file (ByteArray.ext same),
          fun same => congrArg ByteArray.data (FileNode.file.inj same)⟩
  | .directory, .directory => isTrue rfl
  | .file _, .directory => isFalse nofun
  | .directory, .file _ => isFalse nofun

/-- The nodes of a tree by path.  The root is a directory that is always
there. -/
structure FileTree where
  nodes : List (Path × FileNode) := []

inductive Refusal where
  | absent
  | notDirectory
  | isDirectory
  | invalidName
deriving DecidableEq, Repr

def Refusal.message : Refusal → Text
  | .absent => "no such file or directory".toList
  | .notDirectory => "not a directory".toList
  | .isDirectory => "is a directory".toList
  | .invalidName => "invalid file name".toList

namespace FileTree

def isName (name : Text) : Bool :=
  Text.byteLength name ≤ 255 && !name.contains '\x00'

def node? (tree : FileTree) (path : Path) : Option FileNode :=
  if path = [] then some .directory
  else (tree.nodes.find? fun entry => entry.1 = path).map Prod.snd

def put (path : Path) (node : FileNode) (tree : FileTree) : FileTree :=
  ⟨(path, node) :: tree.nodes.filter fun entry => entry.1 ≠ path⟩

theorem node?_put_self {path : Path} (below : path ≠ []) (node : FileNode) (tree : FileTree) :
    (tree.put path node).node? path = some node := by
  simp [put, node?, below]

/-- Putting a node leaves all other paths as they are. -/
theorem node?_put_of_ne {path other : Path} (distinct : other ≠ path) (node : FileNode)
    (tree : FileTree) : (tree.put path node).node? other = tree.node? other := by
  have kept : ∀ entry : Path × FileNode,
      (!decide (entry.1 = path) && decide (entry.1 = other)) = decide (entry.1 = other) := by
    intro entry
    by_cases isOther : entry.1 = other
    · simp [isOther, distinct]
    · simp [isOther]
  simp [put, node?, distinct.symm, List.find?_filter, kept]

/-- Walk down from `base`: every name but the last has to be a directory. -/
def walk (tree : FileTree) (base : Path) : Path → Except Refusal FileNode
  | [] =>
      match tree.node? base with
      | some node => .ok node
      | none => .error .absent
  | name :: rest =>
      match tree.node? base with
      | some .directory =>
          if isName name then walk tree (base ++ [name]) rest else .error .invalidName
      | some (.file _) => .error .notDirectory
      | none => .error .absent

def read (tree : FileTree) (path : Path) : Except Refusal ByteArray := do
  match ← tree.walk [] path with
  | .file content => return content
  | .directory => throw .isDirectory

/-- Go down a path as it is written, where an empty name and `.` stay and `..`
goes up.  Missing directories are made when `create` is set.  The result is the
directory arrived at, with the directories made so far also after a refusal. -/
def descend (create : Bool) (base : Path) (tree : FileTree) :
    List Text → Except Refusal Path × FileTree
  | [] => (.ok base, tree)
  | name :: rest =>
      if name = [] ∨ name = ['.'] then descend create base tree rest
      else if name = ['.', '.'] then descend create base.dropLast tree rest
      else if isName name then
        match tree.node? (base ++ [name]) with
        | some .directory => descend create (base ++ [name]) tree rest
        | some (.file _) => (.error .notDirectory, tree)
        | none =>
            if create then
              descend create (base ++ [name]) (tree.put (base ++ [name]) .directory) rest
            else (.error .absent, tree)
      else (.error .invalidName, tree)

def makeDirectories (path : List Text) (tree : FileTree) :
    Except Refusal Unit × FileTree :=
  let (outcome, tree) := tree.descend true [] path
  (outcome.map fun _ => (), tree)

/-- Write a file into a directory that is there. -/
def write (path : List Text) (content : ByteArray) (tree : FileTree) :
    Except Refusal Unit × FileTree :=
  match path.getLast? with
  | none => (.error .isDirectory, tree)
  | some name =>
      match (tree.descend false [] path.dropLast).1 with
      | .error refusal => (.error refusal, tree)
      | .ok base =>
          if isName name then
            match tree.node? (base ++ [name]) with
            | some .directory => (.error .isDirectory, tree)
            | _ => (.ok (), tree.put (base ++ [name]) (.file content))
          else (.error .invalidName, tree)

/-- Write a file, making the directories that it lies in. -/
def writeWithParents (path : List Text) (content : ByteArray) (tree : FileTree) :
    Except Refusal Unit × FileTree :=
  match tree.makeDirectories path.dropLast with
  | (.ok _, tree) => tree.write path content
  | (.error refusal, tree) => (.error refusal, tree)

def delete (path : Path) (tree : FileTree) : Bool × FileTree :=
  match tree.read path with
  | .ok _ => (true, ⟨tree.nodes.filter fun entry => entry.1 ≠ path⟩)
  | .error _ => (false, tree)

end FileTree

end Typesheet
