import Typesheet.Address.Typename
import Typesheet.ColumnType.Json

/-!
Contract: the schema of a namespace.

Owns: the schema record, its success test, the name that it is shown under, and
its JSON form.  A schema that could not be loaded without issues is still a
schema: what went wrong is recorded on it.
-/

set_option autoImplicit false

namespace Typesheet

/-- The typed columns of a namespace, with every issue met in loading them. -/
structure Schema where
  uri : Text
  typename : Text := []
  implements : Option ColumnType := none
  columns : List Field := []
  issues : List Issue := []
deriving DecidableEq, Repr

namespace Schema

/-- Loading met no issue. -/
def isOk (schema : Schema) : Bool :=
  schema.issues.isEmpty

/-- The declared type name, or the one that the address suggests. -/
def displayTypename (schema : Schema) : Text :=
  if schema.typename = [] then Address.typename schema.uri else schema.typename

theorem displayTypename_ne_nil (schema : Schema) : schema.displayTypename ≠ [] := by
  unfold displayTypename
  split
  case isTrue => exact Address.typename_ne_nil schema.uri
  case isFalse declared => exact declared

def toJson (schema : Schema) : Json :=
  .record <|
    [("uri", .ofText schema.uri), ("typename", .ofText schema.typename)]
      ++ (match schema.implements with
        | some type => [("implements", type.toJson)]
        | none => [])
      ++ [("columns", .array (ColumnType.columnsToJson schema.columns)),
        ("errors", .array (Issue.listToJson schema.issues))]

def ofJson? : Nat → Json → Option Schema
  | 0, _ => none
  | levels + 1, json => do
      let [uri, typename, implements, columns, issues] ← json.fields?
        ["uri", "typename", "implements", "columns", "errors"] | none
      return {
        uri := ← Json.required Json.text? uri
        typename := ← Json.required Json.text? typename
        implements := ← Json.nullable (ColumnType.ofJson? .document levels) implements
        columns := ← Json.required (ColumnType.columnsOfJson? .document levels) columns
        issues := ← Json.withDefault [] (Issue.listOfJson? .document levels) issues }

end Schema

end Typesheet
