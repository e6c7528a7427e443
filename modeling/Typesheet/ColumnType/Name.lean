import Typesheet.ColumnType.Basic
import Typesheet.Expression.Token

/-!
Contract: the name that a type is shown under.

Owns: the array marker and the display name.  The name of an unresolved
reference is its address.
-/

set_option autoImplicit false

namespace Typesheet

def arrayMark : Text := "[]".toList

/-- A text with the array marker behind it when the flag is set. -/
def withArrayMark (text : Text) (isArray : Bool) : Text :=
  if isArray then text ++ arrayMark else text

namespace ColumnType

/-- The display name.  A literal that splits into several tokens is put in
parentheses before the array marker; the name of a union is the one it
carries. -/
def name : ColumnType → Text
  | .keyword word isArray => withArrayMark word.name isArray
  | .literal text isArray =>
      if isArray && 1 < (Expression.Token.texts text).length then
        "(".toList ++ text ++ ")[]".toList
      else withArrayMark text isArray
  | .reference ref =>
      withArrayMark (if ref.isResolved then ref.typename else ref.uri) ref.isArray
  | .union name _ _ => name
  | .unknown text isArray => withArrayMark text isArray

end ColumnType

end Typesheet
