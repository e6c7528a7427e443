import Typesheet.Text.Basic

/-!
Contract: the YAML documents that settings are written in, as values.

Owns: the document tree and the scalars that stand for numbers and booleans.  A
quoted scalar stands for a text only.
-/

set_option autoImplicit false

namespace Typesheet

/-- A YAML document.  A value that is left out is the empty plain scalar. -/
inductive Yaml where
  | plain (text : Text)
  | quoted (text : Text)
  | sequence (elements : List Yaml)
  | mapping (entries : List (Yaml × Yaml))
deriving Repr

namespace Yaml

/-- A value that is left out. -/
def absent : Yaml := .plain []

def scalar? : Yaml → Option Text
  | .plain text => some text
  | .quoted text => some text
  | _ => none

/-- The entries of a mapping; a value that is left out has none. -/
def entries? : Yaml → Option (List (Yaml × Yaml))
  | .mapping entries => some entries
  | .plain [] => some []
  | _ => none

def digitValue (digit : Char) : Option Nat :=
  if digit.isDigit then some (digit.toNat - '0'.toNat)
  else if digit.isAlpha then some (digit.toLower.toNat - 'a'.toNat + 10)
  else none

/-- The number that some digits continue, most significant digit first. -/
def readDigits (base : Nat) : Nat → Text → Option Nat
  | value, [] => some value
  | value, digit :: rest =>
      match digitValue digit with
      | some unit => if unit < base then readDigits base (base * value + unit) rest else none
      | none => none

def readNumeral (base : Nat) (digits : Text) : Option Nat :=
  if digits = [] then none else readDigits base 0 digits

/-- The natural number that a plain scalar stands for.  A decimal numeral has no
leading zeros; `0x`, `0o` and `0b` start numerals of other bases. -/
def nat? : Yaml → Option Nat
  | .plain text =>
      let unsigned := (['+'].isPrefixOf? text).getD text
      match unsigned with
      | ['0'] => some 0
      | '0' :: 'x' :: digits => readNumeral 16 digits
      | '0' :: 'o' :: digits => readNumeral 8 digits
      | '0' :: 'b' :: digits => readNumeral 2 digits
      | '0' :: _ => none
      | digits => readNumeral 10 digits
  | _ => none

/-- The boolean that a plain scalar stands for, in lower case, in capitals or
capitalized. -/
def bool? : Yaml → Option Bool
  | .plain text =>
      if text ∈ ["true".toList, "True".toList, "TRUE".toList] then some true
      else if text ∈ ["false".toList, "False".toList, "FALSE".toList] then some false
      else none
  | _ => none

end Yaml

end Typesheet
