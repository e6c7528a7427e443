import Typesheet.Json.Basic

/-!
Contract: taking records, lists and names out of a JSON document.

Owns: the fields of a record, written as an object or as an array in field
order; the treatment of absent and null fields; lists and maps; and names from
a fixed set.

A document may open at most `maxLevels` arrays and objects inside each other.
The readers count down the levels that are left, so that reading a tree of
records is recursion on that count.
-/

set_option autoImplicit false

namespace Typesheet.Json

/-- How many arrays and objects may be open at once. -/
def maxLevels : Nat := 127

/-- The value of the field `name` among fields that name it at most once. -/
def fieldOnce (name : Text) (fields : List (Option Text × Json)) : Option (Option Json) :=
  match fields.filter fun field => field.1 = some name with
  | [] => some none
  | [field] => some (some field.2)
  | _ => none

/-- The values of the named fields of a record, `none` for an absent one.  An
object may have further fields, but no named field twice; an array holds the
values in the order of the names and may end early. -/
def fields? (names : List String) : Json → Option (List (Option Json))
  | .object fields =>
      if fields.all fun field => field.1.isSome then
        names.mapM fun name => fieldOnce name.toList fields
      else none
  | .array elements =>
      if elements.length ≤ names.length then
        some (elements.map some ++ List.replicate (names.length - elements.length) none)
      else none
  | _ => none

/-- A field that has to be there. -/
def required {Value : Type} (read : Json → Option Value) (field : Option Json) :
    Option Value :=
  field.bind read

/-- A field that may be absent. -/
def withDefault {Value : Type} (default : Value) (read : Json → Option Value) :
    Option Json → Option Value
  | none => some default
  | some json => read json

/-- A field that may be absent or null. -/
def nullable {Value : Type} (read : Json → Option Value) :
    Option Json → Option (Option Value)
  | none => some none
  | some .null => some none
  | some json => (read json).map some

def list? {Value : Type} (read : Json → Option Value) : Json → Option (List Value)
  | .array elements => elements.mapM read
  | _ => none

/-- The pairs of a map, in order and with repetitions. -/
def pairs? {Value : Type} (read : Json → Option Value) :
    Json → Option (List (Text × Value))
  | .object fields =>
      fields.mapM fun field => do
        let key ← field.1
        let value ← read field.2
        return (key, value)
  | _ => none

/-- Whether the record that a value belongs to is read straight from a document
or from one that was kept as a whole first. -/
inductive Origin where
  | document
  | kept
deriving DecidableEq, Repr

/-- Nothing: null, or in a kept document also the empty object. -/
def isNothing : Origin → Json → Bool
  | _, .null => true
  | .kept, .object [] => true
  | _, _ => false

/-- One of a set of names: the name itself, or an object with the name as its
only key and nothing as its value. -/
def name? {Value : Type} (origin : Origin) (ofName? : Text → Option Value) :
    Json → Option Value
  | .string content => content.bind ofName?
  | .object [(key, json)] => if isNothing origin json then key.bind ofName? else none
  | _ => none

end Typesheet.Json
