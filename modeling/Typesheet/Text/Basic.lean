/-!
Contract: texts, the white space around them, and their decimal numerals.

Owns: the text type; the `White_Space` table and trimming by it; numerals of
natural numbers, written without and read with leading zeros.

Does not own: byte encodings (`Text.Bytes`) or any grammar.
-/

set_option autoImplicit false

namespace Typesheet

/-- A text is the list of its Unicode scalar values.  Every rule of this library
reads a text from the left one character at a time, and on lists that reading
is structural recursion. -/
abbrev Text := List Char

namespace Text

/-- A text is in a list when it equals one of its texts. -/
instance decidableMem (text : Text) (texts : List Text) : Decidable (text ∈ texts) :=
  inferInstance

/-- The code points with the Unicode property `White_Space`, as closed ranges. -/
def blankRanges : List (Nat × Nat) :=
  [(0x09, 0x0D), (0x20, 0x20), (0x85, 0x85), (0xA0, 0xA0), (0x1680, 0x1680),
    (0x2000, 0x200A), (0x2028, 0x2029), (0x202F, 0x202F), (0x205F, 0x205F),
    (0x3000, 0x3000)]

/-- A character is blank when it has the property `White_Space`.  Zero-width
characters such as U+200B and U+FEFF do not have it. -/
def isBlank (character : Char) : Bool :=
  blankRanges.any fun range =>
    decide (range.1 ≤ character.toNat) && decide (character.toNat ≤ range.2)

def trimStart (text : Text) : Text :=
  text.dropWhile isBlank

def trimEnd (text : Text) : Text :=
  (text.reverse.dropWhile isBlank).reverse

/-- Drop the blank characters on both sides. -/
def trim (text : Text) : Text :=
  trimEnd (trimStart text)

/-- A text that trims to nothing. -/
def isBlankText (text : Text) : Bool :=
  (trim text).isEmpty

theorem length_trimStart_le (text : Text) : (trimStart text).length ≤ text.length :=
  (List.dropWhile_sublist isBlank).length_le

theorem length_trimEnd_le (text : Text) : (trimEnd text).length ≤ text.length := by
  have shorter := (List.dropWhile_sublist isBlank (l := text.reverse)).length_le
  simpa [trimEnd] using shorter

theorem length_trim_le (text : Text) : (trim text).length ≤ text.length :=
  Nat.le_trans (length_trimEnd_le _) (length_trimStart_le _)

def ofNat (number : Nat) : Text :=
  Nat.toDigits 10 number

/-- The number that a list of decimal digits continues, most significant digit
first. -/
def readDigits : Nat → Text → Option Nat
  | value, [] => some value
  | value, digit :: rest =>
      if digit.isDigit then readDigits (10 * value + (digit.toNat - '0'.toNat)) rest
      else none

/-- Read a numeral: one or more decimal digits, leading zeros allowed. -/
def toNat? (text : Text) : Option Nat :=
  if text.isEmpty then none else readDigits 0 text

/-- Replace each line feed by a space. -/
def onOneLine (text : Text) : Text :=
  text.map fun character => if character = '\n' then ' ' else character

end Text

end Typesheet
