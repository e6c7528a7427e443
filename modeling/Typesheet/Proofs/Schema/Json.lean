import Typesheet.Schema.Basic
import Typesheet.Proofs.ColumnType.Json
import Typesheet.Proofs.Namespace.Json

/-!
Contract: every value of the data model survives in its document.

Owns: schemas are read back, the assembly of what the records have in common, and how deep an
issue tree has to be nested for its document to be refused.
-/

set_option autoImplicit false

namespace Typesheet

open Json (GivesBack Textual Fits Survives)

namespace Schema

/-- The fields of the document of a schema. -/
def fields (schema : Schema) : List (String × Option Json) :=
  [("uri", some (.ofText schema.uri)), ("typename", some (.ofText schema.typename)),
    ("implements", schema.implements.map ColumnType.toJson),
    ("columns", some (.array (schema.columns.map ColumnType.columnToJson))),
    ("errors", some (.array (schema.issues.map Issue.toJson)))]

theorem toJson_eq_present (schema : Schema) :
    schema.toJson = .record (Json.present schema.fields) := by
  obtain ⟨uri, typename, implements, columns, issues⟩ := schema
  rw [fields, ← ColumnType.columnsToJson_eq_map, ← Issue.listToJson_eq_map]
  cases implements <;> rfl

theorem textual_toJson (schema : Schema) : Textual schema.toJson := by
  have columns : Textual (.array (schema.columns.map ColumnType.columnToJson)) :=
    .array (List.forall_mem_map.mpr (ColumnType.textual_columnToJson_of_mem schema.columns))
  have issues : Textual (.array (schema.issues.map Issue.toJson)) :=
    .array (List.forall_mem_map.mpr (Issue.textual_of_mem schema.issues))
  rw [toJson_eq_present]
  apply Json.textual_present
  simp [fields, ColumnType.textual_toJson, columns, issues]

theorem givesBack (levels : Nat) (schema : Schema) :
    GivesBack (ofJson? levels) toJson levels schema := by
  cases levels with
  | zero => exact Json.givesBack_zero_of_record schema.toJson_eq_present
  | succ levels =>
      have taken := @Json.fields?_present ["uri", "typename", "implements", "columns", "errors"]
        schema.fields rfl (by decide)
      have fits : schema.toJson.depth ≤ levels + 1
          ↔ Fits levels (schema.implements.map ColumnType.toJson)
            ∧ (Json.array (schema.columns.map ColumnType.columnToJson)).depth ≤ levels
            ∧ (Json.array (schema.issues.map Issue.toJson)).depth ≤ levels := by
        rw [toJson_eq_present, Json.depth_present_le_iff]
        simp [fields]
      have implements := @Json.nullable_map ColumnType (ColumnType.ofJson? .document levels)
        ColumnType.toJson levels schema.implements
        (fun type => type.toJson_eq_present ▸ Json.record_ne_null _)
        fun inner _ => ColumnType.givesBack .document levels inner
      have columns : ColumnType.columnsOfJson? .document levels _ = _ :=
        ColumnType.givesBack_columns .document levels schema.columns
      have issues : Issue.listOfJson? .document levels _ = _ :=
        Issue.givesBack_list .document levels schema.issues
      apply GivesBack.of_iff fits
      rw [toJson_eq_present, ofJson?, taken]
      simp [fields, Json.required, Json.withDefault, implements, columns, issues,
        Json.bind_if_some, ite_and]

end Schema

/-! ## Every record -/

/-- **Every value of the data model survives in its document**: types, references and columns
nested to any depth, issue trees of any shape, schemas, and the definitions, properties,
listings and registrations of stores, whose documents open at most four levels.  A type is
written with its kind among the fields of its variant. -/
theorem survives_in_document :
    (∀ type : ColumnType, Survives (ColumnType.ofJson? .document) ColumnType.toJson
        (("kind", some (.ofText type.variant.name.toList)) :: type.variantFields) type)
      ∧ (∀ ref : Ref, Survives Reference.ofJson? Reference.toJson
          (ColumnType.fieldsOfReference ref) ref)
      ∧ (∀ column : Field, Survives (ColumnType.columnOfJson? .document)
          ColumnType.columnToJson (ColumnType.columnFields column) column)
      ∧ (∀ issue : Issue, Survives (Issue.ofJson? .document) Issue.toJson issue.fields issue)
      ∧ (∀ schema : Schema, Survives Schema.ofJson? Schema.toJson schema.fields schema)
      ∧ (∀ definition : Definition, (definition.columns.map Prod.fst).Nodup →
          Survives Definition.ofJson? Definition.toJson definition.fields definition
            ∧ definition.toJson.depth ≤ 4)
      ∧ (∀ property : Property, Survives Property.ofJson? Property.toJson property.fields property
          ∧ property.toJson.depth ≤ 4)
      ∧ (∀ listing : Listing, (listing.columns.map Prod.fst).Nodup →
          Survives Listing.ofJson? Listing.toJson listing.fields listing
            ∧ listing.toJson.depth ≤ 4)
      ∧ ∀ registration : Registration,
          Survives Registration.ofJson? Registration.toJson registration.fields registration
            ∧ registration.toJson.depth ≤ 4 := by
  refine ⟨fun type => ?_, fun ref => ?_, fun column => ?_, fun issue => ?_, fun schema => ?_,
    fun definition distinct => ⟨?_, definition.depth_toJson_le 0⟩,
    fun property => ⟨?_, property.depth_toJson_le 3⟩,
    fun listing distinct => ⟨?_, listing.depth_toJson_le 0⟩,
    fun registration => ⟨?_, registration.depth_toJson_le 2⟩⟩
  · exact Json.survives_of_givesBack type.toJson_eq_present type.textual_toJson
      fun levels => ColumnType.givesBack .document levels type
  · exact Json.survives_of_givesBack (Reference.toJson_eq_present ref)
      (Reference.textual_toJson ref) fun levels => Reference.givesBack levels ref
  · exact Json.survives_of_givesBack (ColumnType.columnToJson_eq_present column)
      (ColumnType.textual_columnToJson column)
      fun levels => ColumnType.givesBack_column .document levels column
  · exact Json.survives_of_givesBack issue.toJson_eq_present issue.textual_toJson
      fun levels => Issue.givesBack .document levels issue
  · exact Json.survives_of_givesBack schema.toJson_eq_present schema.textual_toJson
      fun levels => schema.givesBack levels
  · exact Json.survives_of_givesBack definition.toJson_eq_present definition.textual_toJson
      fun levels => Definition.givesBack levels distinct
  · exact Json.survives_of_givesBack property.toJson_eq_present property.textual_toJson
      fun levels => property.givesBack levels
  · exact Json.survives_of_givesBack listing.toJson_eq_present listing.textual_toJson
      fun levels => Listing.givesBack levels distinct
  · exact Json.survives_of_givesBack registration.toJson_eq_present registration.textual_toJson
      fun levels => registration.givesBack levels

/-- Two columns, the second of which declares nothing, under the keys `B` and `C`. -/
def twoColumns : Table Entry :=
  [("B".toList, ⟨some { name := "name".toList, typeText := some "string".toList }⟩),
    ("C".toList, {})]

theorem survives_in_document_of_two_columns :
    (twoColumns.map Prod.fst).Nodup
      ∧ (Survives Definition.ofJson? Definition.toJson
          [("typename", some (.ofText "Order".toList)), ("implements", none),
            ("columns", some (Entry.tableToJson twoColumns))]
          ⟨"Order".toList, none, twoColumns⟩
        ∧ (Definition.mk "Order".toList none twoColumns).toJson.depth ≤ 4)
      ∧ Survives Listing.ofJson? Listing.toJson
          [("columns", some (Entry.tableToJson twoColumns))] ⟨twoColumns⟩
        ∧ (Listing.mk twoColumns).toJson.depth ≤ 4 :=
  have distinct : (twoColumns.map Prod.fst).Nodup := by decide
  ⟨distinct, survives_in_document.2.2.2.2.2.1 ⟨"Order".toList, none, twoColumns⟩ distinct,
    survives_in_document.2.2.2.2.2.2.2.1 ⟨twoColumns⟩ distinct⟩

namespace Issue

/-- An issue with a chain of issues below it. -/
def chain : Nat → Issue
  | 0 => ⟨.circularReference, "again".toList, []⟩
  | length + 1 => ⟨.circularReference, "again".toList, [chain length]⟩

theorem depth_toJson_chain (length : Nat) : (chain length).toJson.depth = 2 * length + 1 := by
  induction length with
  | zero => rfl
  | succ length inductionHypothesis =>
      have opened : (chain (length + 1)).toJson.depth = (chain length).toJson.depth + 2 := by
        simp [chain, toJson, listToJson, Json.record, Json.depth, Json.depthOfFields,
          Json.depthOfField, Json.depthOfAll]
      omega

/-- An issue with 64 issues below each other is written as a document that no reader accepts:
it opens two levels more than `Json.maxLevels`. -/
theorem chain_not_read_back :
    (Json.read? (chain 64).toJson.write).bind (ofJson? .document Json.maxLevels) = none := by
  have deep : ¬ (chain 64).toJson.depth ≤ Json.maxLevels := by
    rw [depth_toJson_chain]
    decide
  rw [Json.read?_write (chain 64).textual_toJson, Option.bind_some]
  exact (givesBack .document Json.maxLevels (chain 64)).trans (if_neg deep)

end Issue

end Typesheet
