import Typesheet.Json.Read
import Typesheet.Yaml.Basic

/-!
Contract: reading a YAML document from text.

Owns: the readers of scalars, of flow collections, of block mappings, and of one
whole document.  Read are block mappings, flow mappings and sequences, plain and
quoted scalars, comments, and the markers `---` and `...`; anything else is
refused.

Every reader returns what it read and the text that is left.  Readers of block
structure start and end at the beginning of a line.
-/

set_option autoImplicit false

namespace Typesheet.Yaml

/-! ## Characters and lines -/

def isAllowed (character : Char) : Bool :=
  let code := character.toNat
  code = 0x09 || code = 0x0A || code = 0x0D || (0x20 ≤ code && code ≤ 0x7E) || code = 0x85
    || (0xA0 ≤ code && code ≤ 0xD7FF) || (0xE000 ≤ code && code ≤ 0xFFFD && code ≠ 0xFEFF)
    || 0x10000 ≤ code

/-- Write every line break as a line feed. -/
def unifyBreaks : Text → Text
  | '\r' :: '\n' :: rest => '\n' :: unifyBreaks rest
  | character :: rest =>
      (if character ∈ ['\r', '\u0085', '\u2028', '\u2029'] then '\n' else character)
        :: unifyBreaks rest
  | [] => []

def isSpace (character : Char) : Bool :=
  character = ' ' || character = '\t'

/-- A blank, a line break or the end of the text follows. -/
def endsToken : Text → Bool
  | [] => true
  | character :: _ => isSpace character || character = '\n'

def dropLine (text : Text) : Text :=
  (text.dropWhile (· ≠ '\n')).drop 1

/-- End a line on which only blanks and a comment may follow. -/
def finishLine : Text → Option Text
  | [] => some []
  | character :: rest =>
      if character = '\n' then some rest
      else if isSpace character then finishLine rest
      else if character = '#' then some (dropLine rest)
      else none

/-- Find the next line that is neither empty nor a comment: its indentation, and
the text from its first character on. -/
def nextLine (indent : Nat) (inComment : Bool) : Text → Option (Nat × Text)
  | [] => none
  | character :: rest =>
      if character = '\n' then nextLine 0 false rest
      else if inComment then nextLine indent true rest
      else if character = ' ' then nextLine (indent + 1) false rest
      else if character = '#' then nextLine indent true rest
      else some (indent, character :: rest)

def isMarker (marker : Text) (indent : Nat) (content : Text) : Bool :=
  indent = 0 && marker.isPrefixOf content && endsToken (content.drop marker.length)

/-- One of the two document markers stands at the start of a line. -/
def isAnyMarker (indent : Nat) (content : Text) : Bool :=
  isMarker "---".toList indent content || isMarker "...".toList indent content

/-! ## Scalars -/

/-- Read a single-quoted scalar after its opening quote.  A quote inside is
written twice. -/
def readSingleQuoted : Text → Option (Text × Text)
  | [] => none
  | '\'' :: '\'' :: rest =>
      (readSingleQuoted rest).map fun found => ('\'' :: found.1, found.2)
  | '\'' :: rest => some ([], rest)
  | character :: rest =>
      (readSingleQuoted rest).map fun found => (character :: found.1, found.2)

/-- Read a double-quoted scalar after its opening quote. -/
def readDoubleQuoted (text : Text) : Option (Text × Text) :=
  (Json.readCharacters false text).bind fun found =>
    found.1.map fun content => (content, found.2)

def readQuoted (quote : Char) (text : Text) : Option (Text × Text) :=
  if quote = '"' then readDoubleQuoted text else readSingleQuoted text

def isFlowMark (character : Char) : Bool :=
  character ∈ [',', '[', ']', '{', '}']

/-- A plain scalar may start here. -/
def startsPlain (inFlow : Bool) : Text → Bool
  | [] => false
  | first :: rest =>
      if first = '-' then !endsToken rest
      else if first = '?' || first = ':' then !inFlow && !endsToken rest
      else
        !isSpace first && first ≠ '\n' && !isFlowMark first
          && first ∉ ['#', '&', '*', '!', '|', '>', '\'', '"', '%', '@', '\u0060']

/-- Read a plain scalar up to the mark that ends it: a colon before a blank, a
comment, in a flow collection a delimiter, outside one the end of the line.  In
a flow collection a colon right before a delimiter is refused. -/
def readPlain (inFlow : Bool) : Text → Option (Text × Text)
  | [] => some ([], [])
  | character :: rest =>
      let goOn := (readPlain inFlow rest).map fun found => (character :: found.1, found.2)
      if character = ':' then
        if endsToken rest then some ([], character :: rest)
        else if inFlow && rest.head?.any fun next => next = '?' || isFlowMark next then none
        else goOn
      else if inFlow && isFlowMark character then some ([], character :: rest)
      else if !inFlow && character = '\n' then some ([], character :: rest)
      else if (isSpace character || character = '\n') && rest.head? = some '#' then
        some ([], character :: rest)
      else goOn

/-! ## Flow collections -/

/-- Drop blanks, line breaks and comments inside a flow collection. -/
def skipFlow (inComment : Bool) : Text → Text
  | [] => []
  | character :: rest =>
      if character = '\n' then skipFlow false rest
      else if inComment then skipFlow true rest
      else if isSpace character then skipFlow false rest
      else if character = '#' then skipFlow true rest
      else character :: rest

mutual

def readFlow : Nat → Text → Option (Yaml × Text)
  | 0, _ => none
  | fuel + 1, text =>
      match text with
      | '{' :: rest =>
          (readFlowEntries fuel (skipFlow false rest)).map fun found =>
            (.mapping found.1, found.2)
      | '[' :: rest =>
          (readFlowElements fuel (skipFlow false rest)).map fun found =>
            (.sequence found.1, found.2)
      | first :: rest =>
          if first = '"' || first = '\'' then
            (readQuoted first rest).map fun found => (.quoted found.1, found.2)
          else if startsPlain true text then
            (readPlain true text).map fun found => (.plain (Text.trimEnd found.1), found.2)
          else none
      | [] => none

/-- Read the value of an entry after its key: what follows a colon, or nothing. -/
def readFlowValue : Nat → Text → Option (Yaml × Text)
  | 0, _ => none
  | fuel + 1, text =>
      match text with
      | ':' :: rest =>
          let rest := skipFlow false rest
          if rest.head?.any fun next => next = ',' || next = '}' || next = ']' then
            some (absent, rest)
          else (readFlow fuel rest).map fun found => (found.1, skipFlow false found.2)
      | _ => some (absent, text)

/-- Read the entries of a flow mapping up to its end. -/
def readFlowEntries : Nat → Text → Option (List (Yaml × Yaml) × Text)
  | 0, _ => none
  | fuel + 1, text =>
      match text with
      | '}' :: rest => some ([], rest)
      | _ => do
          let (key, rest) ← readFlow fuel text
          let (value, rest) ← readFlowValue fuel (skipFlow false rest)
          match rest with
          | ',' :: rest =>
              let (more, rest) ← readFlowEntries fuel (skipFlow false rest)
              return ((key, value) :: more, rest)
          | '}' :: rest => return ([(key, value)], rest)
          | _ => none

/-- Read the elements of a flow sequence up to its end.  An element with a colon
behind it is a mapping of one entry. -/
def readFlowElements : Nat → Text → Option (List Yaml × Text)
  | 0, _ => none
  | fuel + 1, text =>
      match text with
      | ']' :: rest => some ([], rest)
      | _ => do
          let (element, rest) ← readFlow fuel text
          let rest := skipFlow false rest
          let (element, rest) ←
            if rest.head? = some ':' then
              (readFlowValue fuel rest).map fun found =>
                (Yaml.mapping [(element, found.1)], found.2)
            else some (element, rest)
          match rest with
          | ',' :: rest =>
              let (more, rest) ← readFlowElements fuel (skipFlow false rest)
              return (element :: more, rest)
          | ']' :: rest => return ([element], rest)
          | _ => none

end

/-! ## Block structure -/

/-- Read the further lines of a plain scalar: those indented more than `indent`
that are no comments. -/
def readContinuation (indent : Nat) : Nat → Text → Option (Text × Text)
  | 0, _ => none
  | fuel + 1, text =>
      let stripped := text.dropWhile fun character => isSpace character || character = '\n'
      match nextLine 0 false text with
      | some (own, content) =>
          if indent < own && content = stripped then do
            let (scalar, rest) ← readPlain false content
            match rest with
            | '\n' :: rest =>
                let (more, rest) ← readContinuation indent fuel rest
                return (' ' :: Text.trimEnd scalar ++ more, rest)
            | _ => return (' ' :: Text.trimEnd scalar, ← finishLine rest)
          else some ([], text)
      | none => some ([], text)

/-- Read a value that is no block mapping, and end its line. -/
def readInline (indent : Nat) (text : Text) : Option (Yaml × Text) :=
  match text with
  | [] => none
  | first :: rest =>
      if first = '{' || first = '[' then do
        let (value, rest) ← readFlow (2 * text.length + 1) text
        return (value, ← finishLine rest)
      else if first = '"' || first = '\'' then do
        let (content, rest) ← readQuoted first rest
        return (.quoted content, ← finishLine rest)
      else if startsPlain false text then do
        let (scalar, rest) ← readPlain false text
        match rest with
        | '\n' :: rest =>
            let (more, rest) ← readContinuation indent (rest.length + 1) rest
            return (.plain (Text.trimEnd scalar ++ more), rest)
        | _ => return (.plain (Text.trimEnd scalar), ← finishLine rest)
      else none

def readKey (text : Text) : Option (Yaml × Text) := do
  let (key, rest) ←
    match text with
    | [] => none
    | first :: rest =>
        if first = '"' || first = '\'' then
          (readQuoted first rest).map fun found =>
            (Yaml.quoted found.1, found.2.dropWhile isSpace)
        else if startsPlain false text then
          (readPlain false text).map fun found => (.plain (Text.trimEnd found.1), found.2)
        else none
  match rest with
  | ':' :: rest => if endsToken rest then return (key, rest) else none
  | _ => none

mutual

/-- Read a block mapping whose keys are indented by `indent`, from its first key
on. -/
def readMapping (indent : Nat) : Nat → Text → Option (List (Yaml × Yaml) × Text)
  | 0, _ => none
  | fuel + 1, text => do
      let (key, rest) ← readKey text
      let (value, rest) ← readValue indent fuel rest
      match nextLine 0 false rest with
      | some (own, content) =>
          if own < indent || isAnyMarker own content then return ([(key, value)], rest)
          else if own = indent then
            let (more, rest) ← readMapping indent fuel content
            return ((key, value) :: more, rest)
          else none
      | none => return ([(key, value)], [])

/-- Read the value of a block entry: what stands behind its colon, or on further
lines that are indented more than its key. -/
def readValue (indent : Nat) : Nat → Text → Option (Yaml × Text)
  | 0, _ => none
  | fuel + 1, text =>
      match finishLine text with
      | some rest =>
          match nextLine 0 false rest with
          | some (own, content) =>
              if indent < own then readNode indent own fuel content else some (absent, rest)
          | none => some (absent, [])
      | none => readInline indent (text.dropWhile isSpace)

/-- Read a value that starts a line indented by `own`. -/
def readNode (indent own : Nat) : Nat → Text → Option (Yaml × Text)
  | 0, _ => none
  | fuel + 1, content =>
      if (readKey content).isSome then
        (readMapping own fuel content).map fun found => (.mapping found.1, found.2)
      else readInline indent content

end

/-! ## Documents -/

/-- Nothing but an end marker may follow a document. -/
def isEnd (text : Text) : Bool :=
  match nextLine 0 false text with
  | none => true
  | some (indent, content) =>
      isMarker "...".toList indent content && (nextLine 0 false (dropLine content)).isNone

/-- Read the value of a document from the start of a line on. -/
def readRoot (text : Text) : Option (Yaml × Text) :=
  match nextLine 0 false text with
  | none => some (absent, [])
  | some (indent, content) =>
      if isAnyMarker indent content then some (absent, text)
      else readNode 0 indent (3 * text.length + 3) content

/-- Read a document. -/
def read? (text : Text) : Option Yaml := do
  let text := unifyBreaks (((['\uFEFF'] : Text).isPrefixOf? text).getD text)
  if text.all isAllowed then
    let (value, rest) ←
      match nextLine 0 false text with
      | some (indent, content) =>
          if isMarker "---".toList indent content then
            match finishLine (content.drop 3) with
            | some rest => readRoot rest
            | none => readInline 0 ((content.drop 3).dropWhile isSpace)
          else readRoot text
      | none => some (absent, [])
    if isEnd rest then return value else none
  else none

end Typesheet.Yaml
