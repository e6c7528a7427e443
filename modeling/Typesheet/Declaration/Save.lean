import Typesheet.Declaration.Render
import Typesheet.Storage.FileTree

/-!
Contract: saving the declaration file of a schema.

Owns: the file systems that a file can be saved to, the choice of the file name,
and saving as a step on the state of a file system: make the directory, then
write the file.  A name that would leave the directory is refused before
anything is done, and what a file system fails with is handed on as it is.
-/

set_option autoImplicit false

namespace Typesheet.Declaration

inductive SaveError where
  | io (path detail : Text)
  | invalidName (name : Text)
deriving DecidableEq, Repr

def SaveError.message : SaveError → Text
  | .io path detail => "Failed to write ".toList ++ path ++ ": ".toList ++ detail
  | .invalidName name => "Invalid declaration filename `".toList ++ name ++ "`".toList

/-- What saving needs of a file system with a given state.  How it fails is its own choice. -/
structure FileSystem (State : Type) where
  makeDirectory : Text → State → Except SaveError Unit × State
  writeFile : Text → Text → State → Except SaveError Unit × State

/-- An operation on a file system. -/
inductive Operation where
  | makeDirectory (directory : Text)
  | writeFile (path data : Text)
deriving DecidableEq, Repr

namespace Operation

def path : Operation → Text
  | .makeDirectory directory => directory
  | .writeFile path _ => path

def describe : Operation → Text
  | .makeDirectory directory => "mkdir ".toList ++ directory
  | .writeFile path _ => "write ".toList ++ path

/-- A refusal is reported at the path of the operation. -/
def report (operation : Operation) (outcome : Except Text Unit) : Except SaveError Unit :=
  outcome.mapError (.io operation.path)

end Operation

namespace FileSystem

/-- The file system that keeps a record of its operations and answers each as
told. -/
def recording (answer : Operation → Except Text Unit) : FileSystem (List Operation) where
  makeDirectory directory record :=
    let operation := .makeDirectory directory
    (operation.report (answer operation), record ++ [operation])
  writeFile path data record :=
    let operation := .writeFile path data
    (operation.report (answer operation), record ++ [operation])

/-- The names on a path as it is written. -/
def names (path : Text) : List Text :=
  path.splitOn '/'

/-- The file system that a file tree is. -/
def ofTree : FileSystem FileTree where
  makeDirectory directory tree :=
    let (outcome, tree) := tree.makeDirectories (names directory)
    (Operation.report (.makeDirectory directory) (outcome.mapError Refusal.message), tree)
  writeFile path data tree :=
    let (outcome, tree) := tree.write (names path) (Text.toBytes data)
    (Operation.report (.writeFile path data) (outcome.mapError Refusal.message), tree)

end FileSystem

structure Saved where
  path : Text
  data : Text
deriving DecidableEq, Repr

def extension : Text := ".d.ts".toList

/-- The name that was asked for, trimmed, or the display name of the schema. -/
def chosenName (name : Option Text) (schema : Schema) : Text :=
  match name with
  | some name => Text.trim name
  | none => schema.displayTypename

/-- A name that stays inside its directory. -/
def isFileName (name : Text) : Bool :=
  !name.isEmpty && name.all fun character => character ≠ '/' && character ≠ '\\'

def withExtension (name : Text) : Text :=
  if extension.isSuffixOf name then name else name ++ extension

def joinPath (directory name : Text) : Text :=
  if directory = [] ∨ ['/'].isSuffixOf directory then directory ++ name
  else directory ++ '/' :: name

def save {State : Type} (fileSystem : FileSystem State) (directory : Text)
    (name : Option Text) (options : RenderOptions) (schema : Schema) (state : State) :
    Except SaveError Saved × State :=
  let name := chosenName name schema
  if isFileName name then
    let path := joinPath directory (withExtension name)
    let data := renderSchema options schema
    match fileSystem.makeDirectory directory state with
    | (.error failure, state) => (.error failure, state)
    | (.ok _, state) =>
        match fileSystem.writeFile path data state with
        | (.error failure, state) => (.error failure, state)
        | (.ok _, state) => (.ok ⟨path, data⟩, state)
  else (.error (.invalidName name), state)

end Typesheet.Declaration
