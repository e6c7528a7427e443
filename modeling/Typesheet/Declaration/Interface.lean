import Typesheet.ColumnType.Basic

/-!
Contract: the interfaces that a declaration file declares.

Owns: the list of interfaces, the names given to them, and collecting one
interface for every distinct shape that is referred to.  A shape is a type name
together with the columns under it; two shapes with one type name get two
interface names.
-/

set_option autoImplicit false

namespace Typesheet.Declaration

/-- An interface: the name that it is declared under, the type name that it was
collected for, the interface it extends, and its columns. -/
structure Interface where
  name : Text
  typename : Text
  base : Option Text := none
  columns : List Field
deriving DecidableEq, Repr

def Interface.hasShape (typename : Text) (columns : List Field) (interface : Interface) :
    Bool :=
  interface.typename = typename && interface.columns = columns

def nameOf? (interfaces : List Interface) (typename : Text) (columns : List Field) :
    Option Text :=
  (interfaces.find? (Interface.hasShape typename columns)).map Interface.name

/-- The name that a resolved reference is written with. -/
def referenceName (interfaces : List Interface) (ref : Ref) : Text :=
  (nameOf? interfaces ref.typename ref.columns).getD ref.typename

/-- A name with the numbers 2, 3, … behind it, `count` of them. -/
def numbered (name : Text) (count : Nat) : List Text :=
  (List.range count).map fun index => name ++ Text.ofNat (index + 2)

/-- The name itself, or the first numbered one that is not taken.  There are as
many numbered names to try as names taken, and one of the taken names is the
name itself, so one is free. -/
def freeName (taken : List Text) (name : Text) : Text :=
  if name ∈ taken then
    ((numbered name taken.length).find? fun candidate => candidate ∉ taken).getD []
  else name

/-- Add an interface for a shape under a free name. -/
def addShape (interfaces : List Interface) (typename : Text) (columns : List Field) :
    List Interface :=
  interfaces ++
    [{ name := freeName (interfaces.map Interface.name) typename
       typename
       columns }]

mutual

def collectType (interfaces : List Interface) : ColumnType → List Interface
  | .reference ref => collectReference interfaces ref
  | .union _ members _ => collectMembers interfaces members
  | _ => interfaces
termination_by structural type => type

/-- Add the shapes that the members of a union refer to. -/
def collectMembers (interfaces : List Interface) : List ColumnType → List Interface
  | [] => interfaces
  | type :: rest => collectMembers (collectType interfaces type) rest
termination_by structural types => types

/-- Add the shape of a resolved reference, and then those that its columns refer
to, unless it was added before. -/
def collectReference (interfaces : List Interface) : Ref → List Interface
  | ⟨_, _, _, typename, _, columns⟩ =>
      if typename.isEmpty || (nameOf? interfaces typename columns).isSome then interfaces
      else collectColumns (addShape interfaces typename columns) columns
termination_by structural ref => ref

def collectColumns (interfaces : List Interface) : List Field → List Interface
  | [] => interfaces
  | column :: rest => collectColumns (collectColumn interfaces column) rest
termination_by structural columns => columns

def collectColumn (interfaces : List Interface) : Field → List Interface
  | ⟨_, _, type, _, _, _⟩ => collectType interfaces type
termination_by structural column => column

end

end Typesheet.Declaration
