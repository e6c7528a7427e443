import Typesheet.Text.Table

/-!
Contract: what a store keeps of a namespace and what it tells a loader.

Owns: the declared properties of columns, the definition of a namespace with the
calls that build it up, and the two partial views of a definition: the listing
of its columns and the registration of its type.
-/

set_option autoImplicit false

namespace Typesheet

/-- What a sheet declares of one column. -/
structure Property where
  name : Text
  typeText : Option Text := none
  target : Option Text := none
  isOptional : Bool := false
deriving DecidableEq, Repr

/-- A column of a sheet; one without a property declares nothing. -/
structure Entry where
  property : Option Property := none
deriving DecidableEq, Repr

/-- The columns of a namespace by key. -/
structure Listing where
  columns : Table Entry := []
deriving DecidableEq, Repr

/-- The declared name of a namespace's type and the namespace that it
implements. -/
structure Profile where
  typename : Text := []
  implements : Option Text := none
deriving DecidableEq, Repr

/-- Whether a namespace is defined, and the profile that it has. -/
structure Registration where
  isDefined : Bool := false
  profile : Option Profile := none
deriving DecidableEq, Repr

structure Definition where
  typename : Text := []
  implements : Option Text := none
  columns : Table Entry := []
deriving DecidableEq, Repr

namespace Definition

def named (typename : Text) : Definition :=
  { typename }

/-- The definition with a declared property under a key. -/
def withProperty (key : Text) (property : Property) (definition : Definition) :
    Definition :=
  { definition with columns := definition.columns.set key ⟨some property⟩ }

def withColumn (key name typeText : Text) (definition : Definition) : Definition :=
  definition.withProperty key { name, typeText := some typeText }

/-- The definition with a column that may be left empty. -/
def withOptionalColumn (key name typeText : Text) (definition : Definition) :
    Definition :=
  definition.withProperty key { name, typeText := some typeText, isOptional := true }

def implementing (uri : Text) (definition : Definition) : Definition :=
  { definition with implements := some uri }

def listing (definition : Definition) : Listing :=
  ⟨definition.columns⟩

def registration (definition : Definition) : Registration :=
  { isDefined := true
    profile := some ⟨definition.typename, definition.implements⟩ }

end Definition

end Typesheet
