import Typesheet.Address.Uri

/-!
Contract: address schemes, the rules by which a reader of type expressions
recognizes references.

Owns: the scheme as a value, the standard scheme, and two variants of it.  A
scheme only decides what counts as a reference and where its selector starts:
the namespace addresses that it returns are checked ones.
-/

set_option autoImplicit false

namespace Typesheet

/-- What a scheme answers about a text.  The two tests look at the text as it
stands; the two readers decide for themselves what to trim. -/
structure Scheme where
  isNamespace : Text → Bool
  isColumn : Text → Bool
  readNamespace : Text → Except AddressError NamespaceUri
  readColumn : Text → Except AddressError ColumnUri

namespace Scheme

/-- The standard scheme: the two address grammars. -/
def standard : Scheme where
  isNamespace := Address.isNamespace
  isColumn := Address.isColumn
  readNamespace := NamespaceUri.read
  readColumn := ColumnUri.read

/-- Read a column address whose selector is everything after the first `#`. -/
def readFragment (text : Text) : Except AddressError ColumnUri :=
  match Address.cutAt '#' text with
  | some (owner, selector) =>
      match NamespaceUri.read owner with
      | .ok uri => .ok ⟨uri, selector⟩
      | .error error => .error error
  | none => .error (.invalidColumn text)

/-- Columns are addressed by a fragment, `ns:palette#color`. -/
def fragment : Scheme :=
  { standard with
    isColumn := fun text => (readFragment text).isOk
    readColumn := readFragment }

/-- Every text that starts with the marker or with `@` counts as a namespace
reference, whether or not it can be read as one. -/
def lenient : Scheme :=
  { standard with
    isNamespace := fun text => Address.marker.isPrefixOf text || ['@'].isPrefixOf text }

end Scheme

end Typesheet
