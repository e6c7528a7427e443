import Typesheet.ColumnType.Basic
import Typesheet.Text.Bytes

/-!
Contract: the order of spreadsheet columns.

Owns: the valid column keys, the order of keys, and sorting columns by it.
`A` to `Z` come before `AA`: shorter keys first, then byte by byte.
-/

set_option autoImplicit false

namespace Typesheet.Column

/-- A column key is one or more ASCII capitals. -/
def isKey (key : Text) : Bool :=
  !key.isEmpty && key.all Char.isUpper

/-- Compare two keys: by byte length, then byte by byte. -/
def compareKeys (left right : Text) : Ordering :=
  (compare (Text.byteLength left) (Text.byteLength right)).then
    (Text.compareBytes left right)

/-- The columns in the order of their keys.  Columns with one key keep the order
in which they came. -/
def sort (columns : List Field) : List Field :=
  columns.mergeSort fun left right => (compareKeys left.key right.key).isLE

end Typesheet.Column
