import Typesheet.Json.Basic

/-!
Contract: reading a JSON document from text.

Owns: the readers of strings, numbers and values, and of a whole document.
Blank characters between tokens are space, tab, line feed and carriage return.
Each reader returns what it read and the text that is left.
-/

set_option autoImplicit false

namespace Typesheet.Json

/-- Drop the blank characters that JSON allows between tokens. -/
def skipBlanks (text : Text) : Text :=
  text.dropWhile fun character =>
    character = ' ' || character = '\n' || character = '\t' || character = '\r'

/-! ## Strings -/

def hexValue? (digit : Char) : Option Nat :=
  if digit.isDigit then some (digit.toNat - '0'.toNat)
  else if 'a' ≤ digit ∧ digit ≤ 'f' then some (digit.toNat - 'a'.toNat + 10)
  else if 'A' ≤ digit ∧ digit ≤ 'F' then some (digit.toNat - 'A'.toNat + 10)
  else none

/-- The code unit that four hexadecimal digits spell. -/
def codeUnit? (first second third fourth : Char) : Option Nat := do
  let first ← hexValue? first
  let second ← hexValue? second
  let third ← hexValue? third
  let fourth ← hexValue? fourth
  return ((first * 16 + second) * 16 + third) * 16 + fourth

/-- The first half of a surrogate pair. -/
def isLeading (unit : Nat) : Bool := 0xD800 ≤ unit && unit < 0xDC00

/-- The second half of a surrogate pair. -/
def isTrailing (unit : Nat) : Bool := 0xDC00 ≤ unit && unit < 0xE000

/-- The character that the escape after a leading half completes. -/
def pairedWith? (leading : Nat) : Text → Option Char
  | '\\' :: 'u' :: first :: second :: third :: fourth :: _ =>
      match codeUnit? first second third fourth with
      | some unit =>
          if isTrailing unit then
            some (Char.ofNat (0x10000 + (leading - 0xD800) * 0x400 + (unit - 0xDC00)))
          else none
      | none => none
  | _ => none

/-- The character that a backslash and another character stand for. -/
def unescape? : Char → Option Char
  | '"' => some '"'
  | '\\' => some '\\'
  | '/' => some '/'
  | 'b' => some '\x08'
  | 'f' => some '\x0c'
  | 'n' => some '\n'
  | 'r' => some '\r'
  | 't' => some '\t'
  | _ => none

/-- Put characters in front of a string that was read; `none` spoils its
text. -/
def prepend (character : Option Char) (result : Option (Option Text × Text)) :
    Option (Option Text × Text) :=
  result.map fun found =>
    (character.bind fun character => found.1.map (character :: ·), found.2)

/-- Read a string after its opening quote.  `skip` escapes were taken together
with the one before and only have to be passed over. -/
def readCharacters (skip : Bool) : Text → Option (Option Text × Text)
  | [] => none
  | '"' :: rest => some (some [], rest)
  | '\\' :: 'u' :: first :: second :: third :: fourth :: rest =>
      match codeUnit? first second third fourth with
      | none => none
      | some unit =>
          if skip then readCharacters false rest
          else if isLeading unit then
            match pairedWith? unit rest with
            | some character => prepend (some character) (readCharacters true rest)
            | none => prepend none (readCharacters false rest)
          else if isTrailing unit then prepend none (readCharacters false rest)
          else prepend (some (Char.ofNat unit)) (readCharacters false rest)
  | '\\' :: escaped :: rest =>
      match unescape? escaped with
      | some character => prepend (some character) (readCharacters false rest)
      | none => none
  | character :: rest =>
      if character.toNat < 0x20 || character = '\\' then none
      else prepend (some character) (readCharacters false rest)

/-! ## Numbers -/

def readDigitRun (text : Text) : Option (Text × Text) :=
  match text.takeWhile Char.isDigit with
  | [] => none
  | digits => some (digits, text.dropWhile Char.isDigit)

/-- Read the whole part of a number: a zero alone, or digits that start with
another. -/
def readWhole : Text → Option (Text × Text)
  | '0' :: rest =>
      match rest with
      | next :: _ => if next.isDigit then none else some (['0'], rest)
      | [] => some (['0'], rest)
  | text => readDigitRun text

def readFraction : Text → Option (Text × Text)
  | '.' :: rest => (readDigitRun rest).map fun found => ('.' :: found.1, found.2)
  | text => some ([], text)

def readExponent : Text → Option (Text × Text)
  | [] => some ([], [])
  | mark :: rest =>
      if mark = 'e' || mark = 'E' then
        match rest with
        | sign :: digits =>
            if sign = '+' || sign = '-' then
              (readDigitRun digits).map fun found => (mark :: sign :: found.1, found.2)
            else (readDigitRun rest).map fun found => (mark :: found.1, found.2)
        | [] => none
      else some ([], mark :: rest)

def readNumber (text : Text) : Option (Text × Text) := do
  let (sign, unsigned) :=
    match text with
    | '-' :: rest => (['-'], rest)
    | _ => ([], text)
  let (whole, rest) ← readWhole unsigned
  let (fraction, rest) ← readFraction rest
  let (exponent, rest) ← readExponent rest
  return (sign ++ whole ++ fraction ++ exponent, rest)

/-! ## Values -/

mutual

/-- Read a value.  `fuel` bounds the number of values and of commas that may be
met on the way down. -/
def readValue : Nat → Text → Option (Json × Text)
  | 0, _ => none
  | fuel + 1, text =>
      match skipBlanks text with
      | 'n' :: 'u' :: 'l' :: 'l' :: rest => some (.null, rest)
      | 't' :: 'r' :: 'u' :: 'e' :: rest => some (.bool true, rest)
      | 'f' :: 'a' :: 'l' :: 's' :: 'e' :: rest => some (.bool false, rest)
      | '"' :: rest => (readCharacters false rest).map fun found => (.string found.1, found.2)
      | '[' :: rest =>
          match skipBlanks rest with
          | ']' :: rest => some (.array [], rest)
          | rest => (readElements fuel rest).map fun found => (.array found.1, found.2)
      | '{' :: rest =>
          match skipBlanks rest with
          | '}' :: rest => some (.object [], rest)
          | rest => (readFields fuel rest).map fun found => (.object found.1, found.2)
      | rest => (readNumber rest).map fun found => (.number found.1, found.2)

/-- Read one or more elements up to the end of their array. -/
def readElements : Nat → Text → Option (List Json × Text)
  | 0, _ => none
  | fuel + 1, text => do
      let (json, rest) ← readValue fuel text
      match skipBlanks rest with
      | ',' :: rest =>
          let (more, rest) ← readElements fuel rest
          return (json :: more, rest)
      | ']' :: rest => return ([json], rest)
      | _ => none

/-- Read one or more fields up to the end of their object. -/
def readFields : Nat → Text → Option (List (Option Text × Json) × Text)
  | 0, _ => none
  | fuel + 1, text => do
      let (key, rest) ←
        match skipBlanks text with
        | '"' :: rest => readCharacters false rest
        | _ => none
      let (json, rest) ←
        match skipBlanks rest with
        | ':' :: rest => readValue fuel rest
        | _ => none
      match skipBlanks rest with
      | ',' :: rest =>
          let (more, rest) ← readFields fuel rest
          return ((key, json) :: more, rest)
      | '}' :: rest => return ([(key, json)], rest)
      | _ => none

end

/-- Read a document: one value with nothing but blanks around it.  Every step
of the readers takes a character, so twice the length is fuel enough. -/
def read? (text : Text) : Option Json :=
  match readValue (2 * text.length + 1) text with
  | some (json, rest) => if (skipBlanks rest).isEmpty then some json else none
  | none => none

end Typesheet.Json
