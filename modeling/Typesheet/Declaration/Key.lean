import Typesheet.Text.Basic

/-!
Contract: names and property keys in a declaration file.

Owns: the identifiers, quoted names, and the choice between the two.
-/

set_option autoImplicit false

namespace Typesheet.Declaration

/-- The characters that an identifier may start with. -/
def startsIdentifier (character : Char) : Bool :=
  character.isAlpha || character = '_' || character = '$'

/-- The characters that an identifier may go on with. -/
def continuesIdentifier (character : Char) : Bool :=
  character.isAlphanum || character = '_' || character = '$'

def isIdentifier : Text → Bool
  | [] => false
  | first :: rest => startsIdentifier first && rest.all continuesIdentifier

/-- A character as it stands in a quoted name. -/
def escapeInName (character : Char) : Text :=
  if character = '\'' || character = '\\' then ['\\', character] else [character]

def quoteName (name : Text) : Text :=
  '\'' :: name.flatMap escapeInName ++ ['\'']

/-- A property key: the name itself when it is an identifier. -/
def propertyKey (name : Text) : Text :=
  if isIdentifier name then name else quoteName name

end Typesheet.Declaration
