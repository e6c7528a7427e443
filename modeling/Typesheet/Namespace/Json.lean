import Typesheet.Json.Decode
import Typesheet.Namespace.Definition

/-!
Contract: the JSON form of definitions and of the views of them.

Owns: one writer and one reader for each record.  Absent values are left out in
writing; in reading, every field but the name of a property and the `exists` of
a registration may be absent.
-/

set_option autoImplicit false

namespace Typesheet

/-- A field that is written only when it has a value. -/
def Json.ifSome {Value : Type} (name : String) (write : Value → Json) :
    Option Value → List (String × Json)
  | some value => [(name, write value)]
  | none => []

namespace Property

def toJson (property : Property) : Json :=
  .record <|
    [("name", .ofText property.name)]
      ++ Json.ifSome "type" .ofText property.typeText
      ++ Json.ifSome "target" .ofText property.target
      ++ [("optional", .bool property.isOptional)]

def ofJson? : Nat → Json → Option Property
  | 0, _ => none
  | _ + 1, json => do
      let [name, typeText, target, isOptional] ←
        json.fields? ["name", "type", "target", "optional"] | none
      return {
        name := ← Json.required Json.text? name
        typeText := ← Json.nullable Json.text? typeText
        target := ← Json.nullable Json.text? target
        isOptional := ← Json.withDefault false Json.bool? isOptional }

end Property

namespace Entry

def toJson (entry : Entry) : Json :=
  .record (Json.ifSome "prop" Property.toJson entry.property)

def ofJson? : Nat → Json → Option Entry
  | 0, _ => none
  | levels + 1, json => do
      let [property] ← json.fields? ["prop"] | none
      return { property := ← Json.nullable (Property.ofJson? levels) property }

def tableToJson (columns : Table Entry) : Json :=
  .object (columns.map fun column => (some column.1, column.2.toJson))

def tableOfJson? : Nat → Json → Option (Table Entry)
  | 0, _ => none
  | levels + 1, json => (json.pairs? (ofJson? levels)).map Table.ofPairs

end Entry

namespace Listing

def toJson (listing : Listing) : Json :=
  .record [("columns", Entry.tableToJson listing.columns)]

def ofJson? : Nat → Json → Option Listing
  | 0, _ => none
  | levels + 1, json => do
      let [columns] ← json.fields? ["columns"] | none
      return { columns := ← Json.withDefault [] (Entry.tableOfJson? levels) columns }

end Listing

namespace Profile

def toJson (profile : Profile) : Json :=
  .record <|
    [("typename", .ofText profile.typename)]
      ++ Json.ifSome "implements" .ofText profile.implements

def ofJson? : Nat → Json → Option Profile
  | 0, _ => none
  | _ + 1, json => do
      let [typename, implements] ← json.fields? ["typename", "implements"] | none
      return {
        typename := ← Json.withDefault [] Json.text? typename
        implements := ← Json.nullable Json.text? implements }

end Profile

namespace Registration

def toJson (registration : Registration) : Json :=
  .record <|
    [("exists", .bool registration.isDefined)]
      ++ Json.ifSome "type" Profile.toJson registration.profile

def ofJson? : Nat → Json → Option Registration
  | 0, _ => none
  | levels + 1, json => do
      let [isDefined, profile] ← json.fields? ["exists", "type"] | none
      return {
        isDefined := ← Json.required Json.bool? isDefined
        profile := ← Json.nullable (Profile.ofJson? levels) profile }

end Registration

namespace Definition

def toJson (definition : Definition) : Json :=
  .record <|
    [("typename", .ofText definition.typename)]
      ++ Json.ifSome "implements" .ofText definition.implements
      ++ [("columns", Entry.tableToJson definition.columns)]

def ofJson? : Nat → Json → Option Definition
  | 0, _ => none
  | levels + 1, json => do
      let [typename, implements, columns] ←
        json.fields? ["typename", "implements", "columns"] | none
      return {
        typename := ← Json.withDefault [] Json.text? typename
        implements := ← Json.nullable Json.text? implements
        columns := ← Json.withDefault [] (Entry.tableOfJson? levels) columns }

end Definition

end Typesheet
