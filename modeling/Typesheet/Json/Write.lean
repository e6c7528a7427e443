import Typesheet.Json.Basic

/-!
Contract: the compact spelling of a JSON document.

Owns: the escapes of strings and the writer.  Nothing is written between
tokens; in strings only quotes, backslashes and control characters are escaped.
-/

set_option autoImplicit false

namespace Typesheet.Json

def hexDigit (value : Nat) : Char :=
  if value < 10 then Char.ofNat ('0'.toNat + value) else Char.ofNat ('a'.toNat + (value - 10))

def escape (character : Char) : Text :=
  match character with
  | '"' => ['\\', '"']
  | '\\' => ['\\', '\\']
  | '\n' => ['\\', 'n']
  | '\r' => ['\\', 'r']
  | '\t' => ['\\', 't']
  | '\x08' => ['\\', 'b']
  | '\x0c' => ['\\', 'f']
  | _ =>
      if character.toNat < 0x20 then
        ['\\', 'u', '0', '0', hexDigit (character.toNat / 16), hexDigit (character.toNat % 16)]
      else [character]

/-- A string.  One that spells no text is written as half a surrogate pair. -/
def writeString : Option Text → Text
  | some text => '"' :: text.flatMap escape ++ ['"']
  | none => "\"\\ud800\"".toList

mutual

/-- The compact spelling. -/
def write : Json → Text
  | .null => "null".toList
  | .bool true => "true".toList
  | .bool false => "false".toList
  | .number spelling => spelling
  | .string content => writeString content
  | .array elements => '[' :: writeElements elements ++ [']']
  | .object fields => '{' :: writeFields fields ++ ['}']
termination_by structural json => json

def writeElements : List Json → Text
  | [] => []
  | json :: rest => write json ++ writeMoreElements rest
termination_by structural elements => elements

def writeMoreElements : List Json → Text
  | [] => []
  | json :: rest => ',' :: write json ++ writeMoreElements rest
termination_by structural elements => elements

def writeFields : List (Option Text × Json) → Text
  | [] => []
  | field :: rest => writeField field ++ writeMoreFields rest
termination_by structural fields => fields

def writeMoreFields : List (Option Text × Json) → Text
  | [] => []
  | field :: rest => ',' :: writeField field ++ writeMoreFields rest
termination_by structural fields => fields

def writeField : Option Text × Json → Text
  | (key, json) => writeString key ++ ':' :: write json
termination_by structural field => field

end

end Typesheet.Json
