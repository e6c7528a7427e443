import Typesheet.Text.Basic

/-!
Contract: the UTF-8 form of a text.

Owns: the byte length of a text, the order of texts by their bytes, and reading
a text from a file's bytes.
-/

set_option autoImplicit false

namespace Typesheet.Text

def byteLength (text : Text) : Nat :=
  (text.map Char.utf8Size).foldr (· + ·) 0

/-- Compare two texts by the bytes of their UTF-8 forms.  UTF-8 keeps the order
of code points, so the first differing character decides. -/
def compareBytes : Text → Text → Ordering
  | [], [] => .eq
  | [], _ :: _ => .lt
  | _ :: _, [] => .gt
  | left :: lefts, right :: rights =>
      (compare left.toNat right.toNat).then (compareBytes lefts rights)

def toBytes (text : Text) : ByteArray :=
  (String.ofList text).toUTF8

theorem toBytes_append (left right : Text) :
    toBytes (left ++ right) = toBytes left ++ toBytes right := by
  simp [toBytes]

/-- The text with the given UTF-8 form; `none` for bytes that are not UTF-8. -/
def ofBytes? (bytes : ByteArray) : Option Text :=
  bytes.utf8Decode?.map Array.toList

theorem ofBytes?_toBytes (text : Text) : ofBytes? (toBytes text) = some text := by
  simp [ofBytes?, toBytes]

end Typesheet.Text
