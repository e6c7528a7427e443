import Typesheet.Text.Basic

/-!
Contract: JSON documents as values.

Owns: the document tree, looking at its nodes, and the limits on what can be
kept of a document that is read as a whole.

The tree keeps the fields of an object in order and with repetitions, and a
number as it is spelled.  A string is `none` when an escape in it names half of
a surrogate pair: such a string is well-formed JSON but spells no text.
-/

set_option autoImplicit false

namespace Typesheet

inductive Json where
  | null
  | bool (value : Bool)
  | number (spelling : Text)
  | string (content : Option Text)
  | array (elements : List Json)
  | object (fields : List (Option Text × Json))
deriving Repr

namespace Json

def ofText (text : Text) : Json := .string (some text)

def record (fields : List (String × Json)) : Json :=
  .object (fields.map fun field => (some field.1.toList, field.2))

def text? : Json → Option Text
  | .string content => content
  | _ => none

def bool? : Json → Option Bool
  | .bool value => some value
  | _ => none

/-- The natural number that a number without fraction and exponent spells. -/
def nat? : Json → Option Nat
  | .number spelling => Text.toNat? spelling
  | _ => none

def elements? : Json → Option (List Json)
  | .array elements => some elements
  | _ => none

/-- The first field of an object with the given name. -/
def field? (name : String) : Json → Option Json
  | .object fields => (fields.find? fun field => field.1 = some name.toList).map Prod.snd
  | _ => none

/-! ## Keeping a whole document -/

/-- Split a spelled number into its digits without leading zeros and the power
of ten that the last of them stands for. -/
def scale (spelling : Text) : Nat × Int :=
  let unsigned := (("-".toList).isPrefixOf? spelling).getD spelling
  let mantissa := unsigned.takeWhile fun character => character ≠ 'e' && character ≠ 'E'
  let whole := mantissa.takeWhile (· ≠ '.')
  let fraction := (mantissa.dropWhile (· ≠ '.')).drop 1
  let exponent : Int :=
    match unsigned.drop (mantissa.length + 1) with
    | '-' :: digits => -((Text.readDigits 0 digits).getD 0 : Nat)
    | '+' :: digits => ((Text.readDigits 0 digits).getD 0 : Nat)
    | digits => ((Text.readDigits 0 digits).getD 0 : Nat)
  ((Text.readDigits 0 (whole ++ fraction)).getD 0, exponent - fraction.length)

/-- The midpoint between the largest double and the next power of two. -/
def midpoint : Nat := Nat.pow 2 1024 - Nat.pow 2 970

/-- A number that a double-precision float can stand for.  From the midpoint on
there is none. -/
def isFinite (spelling : Text) : Bool :=
  let (digits, power) := scale spelling
  let magnitude : Int := (Text.ofNat digits).length + power
  if digits = 0 || magnitude ≤ 308 then true
  else if 309 < magnitude then false
  else if power < 0 then digits < midpoint * Nat.pow 10 power.natAbs
  else digits * Nat.pow 10 power.natAbs < midpoint

mutual

/-- The document can be kept as a whole when it opens at most `levels` arrays
and objects inside each other, all its strings and keys spell texts, and all
its numbers are finite. -/
def isKept (levels : Nat) : Json → Bool
  | .number spelling => isFinite spelling
  | .string content => content.isSome
  | .array elements =>
      match levels with
      | 0 => false
      | inner + 1 => areKept inner elements
  | .object fields =>
      match levels with
      | 0 => false
      | inner + 1 => areFieldsKept inner fields
  | _ => true
termination_by structural json => json

/-- The elements of an array can be kept. -/
def areKept (levels : Nat) : List Json → Bool
  | [] => true
  | json :: rest => isKept levels json && areKept levels rest
termination_by structural elements => elements

def areFieldsKept (levels : Nat) : List (Option Text × Json) → Bool
  | [] => true
  | field :: rest => isFieldKept levels field && areFieldsKept levels rest
termination_by structural fields => fields

def isFieldKept (levels : Nat) : Option Text × Json → Bool
  | (key, json) => key.isSome && isKept levels json
termination_by structural field => field

end

end Json

end Typesheet
