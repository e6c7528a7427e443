import Typesheet.Text.Basic

/-!
Contract: the addresses of namespaces and of their columns.

    namespace address = "ns:" id
    id                = segment *( "/" segment )
    segment           = 1*( letter / digit / "_" / "-" )
    column address    = namespace address "." selector
    selector          = ( letter / "_" ) *( letter / digit / "_" / "-" )

Letters and digits are ASCII.  Owns: the recognizers of both grammars, the
types of checked addresses, reading them from text with the reason for a
refusal, and adding a missing `ns:` marker.
-/

set_option autoImplicit false

namespace Typesheet

namespace Address

/-- The marker that every namespace address starts with. -/
def marker : Text := "ns:".toList

def isSegmentChar (character : Char) : Bool :=
  character.isAlphanum || character = '_' || character = '-'

/-- One or more segment characters. -/
def isSegment (text : Text) : Bool :=
  !text.isEmpty && text.all isSegmentChar

/-- Segments with a slash between each two. -/
def isId (text : Text) : Bool :=
  (text.splitOn '/').all isSegment

def isNamespace (text : Text) : Bool :=
  match marker.isPrefixOf? text with
  | some id => isId id
  | none => false

def isSelector : Text → Bool
  | [] => false
  | first :: rest => (first.isAlpha || first = '_') && rest.all isSegmentChar

/-- Cut a text at the first occurrence of a character. -/
def cutAt (separator : Char) : Text → Option (Text × Text)
  | [] => none
  | character :: rest =>
      if character = separator then some ([], rest)
      else (cutAt separator rest).map fun pieces => (character :: pieces.1, pieces.2)

/-- The grammar of column addresses.  No namespace address holds a dot, so the
first dot is the one that ends it. -/
def isColumn (text : Text) : Bool :=
  match cutAt '.' text with
  | some (owner, selector) => isNamespace owner && isSelector selector
  | none => false

/-- Trim a text and put the marker in front unless it is there. -/
def normalize (text : Text) : Text :=
  let trimmed := Text.trim text
  if marker.isPrefixOf trimmed then trimmed else marker ++ trimmed

end Address

structure NamespaceUri where
  text : Text
  wellFormed : Address.isNamespace text = true
deriving DecidableEq

/-- A checked namespace address and the selector of one of its columns. -/
structure ColumnUri where
  owner : NamespaceUri
  selector : Text
deriving DecidableEq

inductive AddressError where
  | empty
  | missingMarker (text : Text)
  | invalidNamespace (text : Text)
  | invalidColumn (text : Text)
deriving DecidableEq, Repr

def AddressError.message : AddressError → Text
  | .empty => "namespace is empty".toList
  | .missingMarker text => "expected `ns:` prefix in `".toList ++ text ++ "`".toList
  | .invalidNamespace text => "`".toList ++ text ++ "` is not a valid namespace URI".toList
  | .invalidColumn text => "`".toList ++ text ++ "` is not a valid column URI".toList

namespace NamespaceUri

def id (uri : NamespaceUri) : Text :=
  uri.text.drop Address.marker.length

def segments (uri : NamespaceUri) : List Text :=
  uri.id.splitOn '/'

/-- Read a namespace address, with white space around it allowed. -/
def read (text : Text) : Except AddressError NamespaceUri :=
  let trimmed := Text.trim text
  if trimmed = [] ∨ trimmed = Address.marker then .error .empty
  else if Address.marker.isPrefixOf trimmed = false then .error (.missingMarker trimmed)
  else if wellFormed : Address.isNamespace trimmed = true then .ok ⟨trimmed, wellFormed⟩
  else .error (.invalidNamespace trimmed)

end NamespaceUri

/-- Read a column address, with white space around it allowed. -/
def ColumnUri.read (text : Text) : Except AddressError ColumnUri :=
  let trimmed := Text.trim text
  match Address.cutAt '.' trimmed with
  | some (owner, selector) =>
      if wellFormed : Address.isNamespace owner = true then
        if Address.isSelector selector then .ok ⟨⟨owner, wellFormed⟩, selector⟩
        else .error (.invalidColumn trimmed)
      else .error (.invalidColumn trimmed)
  | none => .error (.invalidColumn trimmed)

end Typesheet
