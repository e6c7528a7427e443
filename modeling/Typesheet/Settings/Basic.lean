import Typesheet.Declaration.Render
import Typesheet.Yaml.Read

/-!
Contract: the settings of loading and rendering.

Owns: the settings with their defaults, reading them from a YAML document, the
override of the depth limit, and their validation.  Every setting may be left
out of the document and unknown ones are passed over; a known one that is given
twice or with a value of the wrong kind is refused.
-/

set_option autoImplicit false

namespace Typesheet

structure Settings where
  maxDepth : Nat := 32
  maxConcurrentColumns : Nat := 8
  rendering : Declaration.RenderOptions := {}
deriving DecidableEq, Repr

inductive SettingsError where
  | unreadable
  | malformed
  | invalidOverride
  | zeroDepth
  | zeroConcurrency
deriving DecidableEq, Repr

/-- The wording of each error, where `path` is the path of the settings file. -/
def SettingsError.message (path : Text) : SettingsError → Text
  | .unreadable => "Failed to read ".toList ++ path
  | .malformed => "Failed to parse ".toList ++ path
  | .invalidOverride => "SHEET_SCHEMA_MAX_DEPTH must be a positive integer".toList
  | .zeroDepth => "resolver.max_depth must be at least 1".toList
  | .zeroConcurrency => "resolver.max_concurrent_columns must be at least 1".toList

/-- The settings file: none was named, the one named does not exist, or it has
the given content. -/
inductive SettingsFile where
  | unnamed
  | missing
  | present (content : Text)
deriving DecidableEq, Repr

namespace Settings

def maxNumber : Nat := Nat.pow 2 64 - 1

/-- A number that a setting can be. -/
def bounded (number : Nat) : Option Nat :=
  if number ≤ maxNumber then some number else none

def number? (value : Yaml) : Option Nat :=
  value.nat?.bind bounded

def isWord (word : String) (key : Yaml) : Bool :=
  key.scalar? = some word.toList

/-- The value of a setting among entries that name it at most once; left out, it
has its default. -/
def setting {Value : Type} (word : String) (default : Value)
    (read : Yaml → Option Value) (entries : List (Yaml × Yaml)) : Option Value :=
  match entries.filter fun entry => isWord word entry.1 with
  | [] => some default
  | [entry] => read entry.2
  | _ => none

/-- The entries of a section, all of whose keys are scalars. -/
def section? (value : Yaml) : Option (List (Yaml × Yaml)) := do
  let entries ← value.entries?
  if entries.all fun entry => entry.1.scalar?.isSome then return entries else none

def readResolver (settings : Settings) (value : Yaml) : Option Settings := do
  let entries ← section? value
  return { settings with
    maxDepth := ← setting "max_depth" settings.maxDepth number? entries
    maxConcurrentColumns :=
      ← setting "max_concurrent_columns" settings.maxConcurrentColumns number? entries }

def readEmitter (options : Declaration.RenderOptions) (value : Yaml) :
    Option Declaration.RenderOptions := do
  let entries ← section? value
  return {
    includeHeader := ← setting "include_header" options.includeHeader Yaml.bool? entries
    indent := ← setting "indent" options.indent number? entries }

def ofYaml? (document : Yaml) : Option Settings := do
  let entries ← section? document
  let settings ← setting "resolver" {} (readResolver {}) entries
  let rendering ← setting "emitter" settings.rendering (readEmitter settings.rendering) entries
  return { settings with rendering }

/-- The settings in a file.  A blank file leaves every setting at its default. -/
def ofFile : SettingsFile → Except SettingsError Settings
  | .unnamed => .ok {}
  | .missing => .error .unreadable
  | .present content =>
      if Text.isBlankText content then .ok {}
      else
        match (Yaml.read? content).bind ofYaml? with
        | some settings => .ok settings
        | none => .error .malformed

/-- Read an override: a decimal numeral with at most one plus sign in front and
white space around it. -/
def readOverride (text : Text) : Option Nat :=
  let trimmed := Text.trim text
  (Text.toNat? ((['+'].isPrefixOf? trimmed).getD trimmed)).bind bounded

/-- Put an override of the depth limit in force, if there is one. -/
def override (depth : Option Text) (settings : Settings) : Except SettingsError Settings :=
  match depth with
  | none => .ok settings
  | some text =>
      match readOverride text with
      | some maxDepth => .ok { settings with maxDepth }
      | none => .error .invalidOverride

/-- Refuse settings under which nothing can be loaded. -/
def validate (settings : Settings) : Except SettingsError Settings :=
  if settings.maxDepth = 0 then .error .zeroDepth
  else if settings.maxConcurrentColumns = 0 then .error .zeroConcurrency
  else .ok settings

/-- The settings in a file, with an override of the depth limit. -/
def load (file : SettingsFile) (depth : Option Text) : Except SettingsError Settings := do
  let settings ← ofFile file
  let settings ← settings.override depth
  settings.validate

end Settings

end Typesheet
