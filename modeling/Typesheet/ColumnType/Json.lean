import Typesheet.ColumnType.Basic
import Typesheet.Issue.Json

/-!
Contract: the JSON form of types, references and columns.

Owns: their writers and readers.  A type is a record whose `kind` stands among
the fields of the variant that it names.  Because the kind may come last, a type
read straight from a document is kept as a whole first; what a kept document
holds is read from there.
-/

set_option autoImplicit false

namespace Typesheet

def Keyword.toJson (keyword : Keyword) : Json :=
  .ofText keyword.name

def Keyword.ofJson? (origin : Json.Origin) (json : Json) : Option Keyword :=
  Json.name? origin Keyword.ofName? json

def Scope.toJson (scope : Scope) : Json :=
  .ofText scope.code

def Scope.ofJson? (origin : Json.Origin) (json : Json) : Option Scope :=
  Json.name? origin Scope.ofCode? json

namespace ColumnType

/-- The variants of a type, as documents name them. -/
inductive Variant where
  | value
  | enumeration
  | reference
  | union
  | unknown
deriving DecidableEq, Repr

namespace Variant

def all : List Variant := [.value, .enumeration, .reference, .union, .unknown]

def name : Variant → String
  | .value => "value"
  | .enumeration => "enum"
  | .reference => "ref"
  | .union => "union"
  | .unknown => "unknown"

/-- Read the name of a variant.  In a kept document its number will do. -/
def ofJson? (origin : Json.Origin) : Json → Option Variant
  | .string content => content.bind fun text => all.find? fun variant => variant.name.toList = text
  | .number spelling =>
      match origin with
      | .document => none
      | .kept =>
          if spelling.all Char.isDigit then (Text.toNat? spelling).bind fun index => all[index]?
          else none
  | _ => none

end Variant

/-! ## Writing -/

mutual

def toJson : ColumnType → Json
  | .keyword word isArray =>
      .record [("kind", .ofText "value".toList), ("primitive", word.toJson),
        ("is_array", .bool isArray)]
  | .literal text isArray =>
      .record [("kind", .ofText "enum".toList), ("literal_text", .ofText text),
        ("is_array", .bool isArray)]
  | .reference ref => .record (("kind", .ofText "ref".toList) :: referenceFields ref)
  | .union name members isArray =>
      .record [("kind", .ofText "union".toList), ("typename", .ofText name),
        ("members", .array (listToJson members)), ("is_array", .bool isArray)]
  | .unknown text isArray =>
      .record [("kind", .ofText "unknown".toList), ("raw_text", .ofText text),
        ("is_array", .bool isArray)]
termination_by structural type => type

def listToJson : List ColumnType → List Json
  | [] => []
  | type :: rest => toJson type :: listToJson rest
termination_by structural types => types

def referenceFields : Ref → List (String × Json)
  | ⟨uri, scope, selector, typename, isArray, columns⟩ =>
      [("uri", .ofText uri), ("scope", scope.toJson)]
        ++ (match selector with
          | some selector => [("selector", .ofText selector)]
          | none => [])
        ++ [("typename", .ofText typename), ("is_array", .bool isArray),
          ("nested_types", .array (columnsToJson columns))]
termination_by structural ref => ref

def columnsToJson : List Field → List Json
  | [] => []
  | column :: rest => columnToJson column :: columnsToJson rest
termination_by structural columns => columns

def columnToJson : Field → Json
  | ⟨key, name, type, target, isOptional, issue⟩ =>
      .record <|
        [("column", .ofText key), ("prop_name", .ofText name), ("type", toJson type)]
          ++ (match target with
            | some target => [("target", .ofText target)]
            | none => [])
          ++ [("optional", .bool isOptional)]
          ++ (match issue with
            | some issue => [("error", issue.toJson)]
            | none => [])
termination_by structural column => column

end

/-! ## Reading -/

/-- Part the kind of a type from the fields or elements of its variant. -/
def partKind? : Json → Option (Json × Json)
  | .object fields =>
      match fields.filter fun field => field.1 = some "kind".toList with
      | [kind] =>
          some (kind.2, .object (fields.filter fun field => field.1 ≠ some "kind".toList))
      | _ => none
  | .array (kind :: rest) => some (kind, .array rest)
  | _ => none

mutual

def ofJson? (origin : Json.Origin) : Nat → Json → Option ColumnType
  | 0, _ => none
  | levels + 1, json =>
      if origin = .document && !json.isKept (levels + 1) then none
      else do
        let (kind, body) ← partKind? json
        match ← Variant.ofJson? origin kind with
        | .value => do
            let [word, isArray] ← body.fields? ["primitive", "is_array"] | none
            return .keyword (← Json.required (Keyword.ofJson? .kept) word)
              (← Json.required Json.bool? isArray)
        | .enumeration => do
            let [text, isArray] ← body.fields? ["literal_text", "is_array"] | none
            return .literal (← Json.required Json.text? text)
              (← Json.required Json.bool? isArray)
        | .reference => do
            let [uri, scope, selector, typename, isArray, columns] ← body.fields?
              ["uri", "scope", "selector", "typename", "is_array", "nested_types"] | none
            return .reference {
              uri := ← Json.required Json.text? uri
              scope := ← Json.required (Scope.ofJson? .kept) scope
              selector := ← Json.nullable Json.text? selector
              typename := ← Json.withDefault [] Json.text? typename
              isArray := ← Json.withDefault false Json.bool? isArray
              columns := ← Json.withDefault [] (columnsOfJson? .kept levels) columns }
        | .union => do
            let [name, members, isArray] ← body.fields? ["typename", "members", "is_array"]
              | none
            return .union (← Json.required Json.text? name)
              (← Json.required (listOfJson? .kept levels) members)
              (← Json.required Json.bool? isArray)
        | .unknown => do
            let [text, isArray] ← body.fields? ["raw_text", "is_array"] | none
            return .unknown (← Json.required Json.text? text)
              (← Json.required Json.bool? isArray)
termination_by structural levels => levels

def listOfJson? (origin : Json.Origin) : Nat → Json → Option (List ColumnType)
  | 0, _ => none
  | levels + 1, json => json.list? (fun element => ofJson? origin levels element)
termination_by structural levels => levels

def columnOfJson? (origin : Json.Origin) : Nat → Json → Option Field
  | 0, _ => none
  | levels + 1, json => do
      let [key, name, type, target, isOptional, issue] ← json.fields?
        ["column", "prop_name", "type", "target", "optional", "error"] | none
      return {
        key := ← Json.required Json.text? key
        name := ← Json.required Json.text? name
        type := ← Json.required (fun json => ofJson? origin levels json) type
        target := ← Json.nullable Json.text? target
        isOptional := ← Json.withDefault false Json.bool? isOptional
        issue := ← Json.nullable (Issue.ofJson? origin levels) issue }
termination_by structural levels => levels

def columnsOfJson? (origin : Json.Origin) : Nat → Json → Option (List Field)
  | 0, _ => none
  | levels + 1, json => json.list? (fun element => columnOfJson? origin levels element)
termination_by structural levels => levels

end

end ColumnType

namespace Reference

def toJson (reference : Ref) : Json :=
  .record (ColumnType.referenceFields reference)

def ofJson? : Nat → Json → Option Ref
  | 0, _ => none
  | levels + 1, json => do
      let [uri, scope, selector, typename, isArray, columns] ← json.fields?
        ["uri", "scope", "selector", "typename", "is_array", "nested_types"] | none
      return {
        uri := ← Json.required Json.text? uri
        scope := ← Json.required (Scope.ofJson? .document) scope
        selector := ← Json.nullable Json.text? selector
        typename := ← Json.withDefault [] Json.text? typename
        isArray := ← Json.withDefault false Json.bool? isArray
        columns := ← Json.withDefault [] (ColumnType.columnsOfJson? .document levels) columns }

end Reference

end Typesheet
