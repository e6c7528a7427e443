import Mathlib.Logic.Basic
import Typesheet.ColumnType.Json
import Typesheet.Proofs.Issue.Json

/-!
Contract: types, references and columns are read back.

Owns: the documents of types are documents of texts and flags whose `kind` is told from the
fields of every variant, and a type, a reference or a column of any shape is read back by
every reader that allows the levels that its document opens.

The induction is on the levels of the reader and not on the tree: what a type holds is read
with fewer levels, and a record that stands in a kept document is read as one straight from
a document, since what can be kept is what is not nested too deep.
-/

set_option autoImplicit false

namespace Typesheet

open Json (GivesBack Textual Fits)

theorem Keyword.ofJson?_toJson (origin : Json.Origin) (word : Keyword) :
    Keyword.ofJson? origin word.toJson = some word := by
  cases word <;> rfl

theorem Scope.ofJson?_toJson (origin : Json.Origin) (scope : Scope) :
    Scope.ofJson? origin scope.toJson = some scope := by
  cases scope <;> rfl

@[simp] theorem Keyword.depth_toJson (word : Keyword) : word.toJson.depth = 0 :=
  rfl

@[simp] theorem Scope.depth_toJson (scope : Scope) : scope.toJson.depth = 0 :=
  rfl

namespace ColumnType

theorem listToJson_eq_map (types : List ColumnType) : listToJson types = types.map toJson := by
  induction types with
  | nil => rfl
  | cons type rest inductionHypothesis =>
      rw [listToJson, inductionHypothesis, List.map_cons]

theorem columnsToJson_eq_map (columns : List Field) :
    columnsToJson columns = columns.map columnToJson := by
  induction columns with
  | nil => rfl
  | cons column rest inductionHypothesis =>
      rw [columnsToJson, inductionHypothesis, List.map_cons]

/-! ## Fields -/

/-- The fields of the document of a column. -/
def columnFields (column : Field) : List (String × Option Json) :=
  [("column", some (.ofText column.key)), ("prop_name", some (.ofText column.name)),
    ("type", some column.type.toJson), ("target", column.target.map .ofText),
    ("optional", some (.bool column.isOptional)), ("error", column.issue.map Issue.toJson)]

/-- The fields of the document of a reference. -/
def fieldsOfReference (ref : Ref) : List (String × Option Json) :=
  [("uri", some (.ofText ref.uri)), ("scope", some ref.scope.toJson),
    ("selector", ref.selector.map .ofText), ("typename", some (.ofText ref.typename)),
    ("is_array", some (.bool ref.isArray)),
    ("nested_types", some (.array (ref.columns.map columnToJson)))]

def variant : ColumnType → Variant
  | .keyword .. => .value
  | .literal .. => .enumeration
  | .reference _ => .reference
  | .union .. => .union
  | .unknown .. => .unknown

/-- The fields of the variant of a type, which stand behind its kind. -/
def variantFields : ColumnType → List (String × Option Json)
  | .keyword word isArray =>
      [("primitive", some word.toJson), ("is_array", some (.bool isArray))]
  | .literal text isArray =>
      [("literal_text", some (.ofText text)), ("is_array", some (.bool isArray))]
  | .reference ref => fieldsOfReference ref
  | .union name members isArray =>
      [("typename", some (.ofText name)), ("members", some (.array (members.map toJson))),
        ("is_array", some (.bool isArray))]
  | .unknown text isArray =>
      [("raw_text", some (.ofText text)), ("is_array", some (.bool isArray))]

theorem columnToJson_eq_present (column : Field) :
    columnToJson column = .record (Json.present (columnFields column)) := by
  obtain ⟨key, name, type, target, isOptional, issue⟩ := column
  cases target <;> cases issue <;> rfl

theorem referenceFields_eq_present (ref : Ref) :
    referenceFields ref = Json.present (fieldsOfReference ref) := by
  obtain ⟨uri, scope, selector, typename, isArray, columns⟩ := ref
  rw [fieldsOfReference, ← columnsToJson_eq_map]
  cases selector <;> rfl

theorem toJson_eq_present (type : ColumnType) :
    type.toJson = .record (Json.present
      (("kind", some (.ofText type.variant.name.toList)) :: type.variantFields)) := by
  cases type with
  | reference ref => rw [toJson, referenceFields_eq_present]; rfl
  | union name members isArray => rw [toJson, listToJson_eq_map]; rfl
  | _ => rfl

/-- The kind of a type is told from the fields of its variant: none of them has its name. -/
theorem kind_notMem_variantFields (type : ColumnType) :
    "kind" ∉ type.variantFields.map Prod.fst := by
  cases type <;> simp [variantFields, fieldsOfReference]

theorem partKind?_present {kind : Json} {fields : List (String × Option Json)}
    (other : "kind" ∉ fields.map Prod.fst) :
    partKind? (.record (Json.present (("kind", some kind) :: fields)))
      = some (kind, .record (Json.present fields)) := by
  have noneIsKind : ∀ field ∈ Json.present fields, field.1 ≠ "kind" := fun field member isKind =>
    other (isKind ▸ Json.name_mem_of_mem_present member)
  have without := Json.filter_record_eq_nil noneIsKind
  have kept : ((Json.present fields).map fun field => (some field.1.toList, field.2)).filter
      (fun field => field.1 ≠ some "kind".toList)
      = (Json.present fields).map fun field => (some field.1.toList, field.2) := by
    rw [List.filter_eq_self, List.forall_mem_map]
    exact fun field member => decide_eq_true fun isKind =>
      noneIsKind field member (String.toList_inj.mp (Option.some.inj isKind))
  have written : Json.present (("kind", some kind) :: fields)
      = ("kind", kind) :: Json.present fields := rfl
  rw [written, Json.record, List.map_cons, partKind?, List.filter_cons_of_pos (by simp), without,
    List.filter_cons_of_neg (by simp), kept]
  rfl

theorem Variant.ofJson?_name (origin : Json.Origin) (variant : Variant) :
    Variant.ofJson? origin (.ofText variant.name.toList) = some variant := by
  cases variant <;> rfl

/-! ## Documents of texts and flags -/

mutual

theorem textual_toJson : ∀ type : ColumnType, Textual type.toJson
  | .keyword word isArray => by
      rw [toJson_eq_present]
      apply Json.textual_present
      simp [variantFields, Keyword.toJson]
  | .literal text isArray => by
      rw [toJson_eq_present]
      apply Json.textual_present
      simp [variantFields]
  | .reference ref => by
      rw [toJson_eq_present]
      apply Json.textual_present
      rw [List.forall_mem_cons]
      exact ⟨Json.isTextual_some_iff.mpr (Json.textual_ofText _), isTextual_fieldsOfReference ref⟩
  | .union name members isArray => by
      have all : Textual (.array (members.map toJson)) :=
        .array (List.forall_mem_map.mpr (textual_of_mem members))
      rw [toJson_eq_present]
      apply Json.textual_present
      simpa [variantFields] using all
  | .unknown text isArray => by
      rw [toJson_eq_present]
      apply Json.textual_present
      simp [variantFields]

theorem textual_of_mem : ∀ types : List ColumnType, ∀ type ∈ types, Textual type.toJson
  | [] => List.forall_mem_nil _
  | type :: rest => List.forall_mem_cons.mpr ⟨textual_toJson type, textual_of_mem rest⟩

theorem isTextual_fieldsOfReference : ∀ ref : Ref,
    ∀ field ∈ fieldsOfReference ref, Json.IsTextual field.2
  | ⟨uri, scope, selector, typename, isArray, columns⟩ => by
      have all : Textual (.array (columns.map columnToJson)) :=
        .array (List.forall_mem_map.mpr (textual_columnToJson_of_mem columns))
      simpa [fieldsOfReference, Scope.toJson] using all

theorem textual_columnToJson_of_mem : ∀ columns : List Field,
    ∀ column ∈ columns, Textual (columnToJson column)
  | [] => List.forall_mem_nil _
  | column :: rest =>
      List.forall_mem_cons.mpr ⟨textual_columnToJson column, textual_columnToJson_of_mem rest⟩

theorem textual_columnToJson : ∀ column : Field, Textual (columnToJson column)
  | ⟨key, name, type, target, isOptional, issue⟩ => by
      have ofType := textual_toJson type
      rw [columnToJson_eq_present]
      apply Json.textual_present
      simpa [columnFields, Issue.textual_toJson] using ofType

end

/-! ## Reading back -/

section Levels

variable {origin : Json.Origin} {levels : Nat}

/-- A type is read back by a reader that reads back what stands inside it with one level
less. -/
theorem givesBack_of_parts (type : ColumnType)
    (members : ∀ types, GivesBack (listOfJson? .kept levels)
      (fun types => .array (types.map toJson)) levels types)
    (columns : ∀ columns, GivesBack (columnsOfJson? .kept levels)
      (fun columns => .array (columns.map columnToJson)) levels columns) :
    GivesBack (ofJson? origin (levels + 1)) toJson (levels + 1) type := by
  have fits : type.toJson.depth ≤ levels + 1
      ↔ ∀ field ∈ type.variantFields, Fits levels field.2 := by
    rw [toJson_eq_present, Json.depth_present_le_iff, List.forall_mem_cons]
    exact and_iff_right (Json.fits_some_iff.mpr (Nat.zero_le levels))
  have parted : partKind? type.toJson = some (.ofText type.variant.name.toList,
      .record (Json.present type.variantFields)) := by
    rw [toJson_eq_present]
    exact partKind?_present (kind_notMem_variantFields type)
  unfold GivesBack
  rw [ofJson?]
  by_cases refused : (origin = .document && !type.toJson.isKept (levels + 1)) = true
  · have notKept : ¬ type.toJson.isKept (levels + 1) = true := by
      simpa using (Bool.and_eq_true_iff.mp refused).2
    rw [(textual_toJson type).isKept_iff] at notKept
    rw [if_pos refused, if_neg notKept]
  · rw [if_neg refused, parted]
    simp only [fits, Option.bind_eq_bind, Option.bind_some, Variant.ofJson?_name]
    cases type with
    | keyword word isArray =>
        have taken := @Json.fields?_present ["primitive", "is_array"]
          (variantFields (.keyword word isArray)) rfl (by decide)
        simp only [variant, taken]
        simp [variantFields, Json.required, Keyword.ofJson?_toJson]
    | literal text isArray =>
        have taken := @Json.fields?_present ["literal_text", "is_array"]
          (variantFields (.literal text isArray)) rfl (by decide)
        simp only [variant, taken]
        simp [variantFields, Json.required]
    | reference ref =>
        have taken := @Json.fields?_present
          ["uri", "scope", "selector", "typename", "is_array", "nested_types"]
          (variantFields (.reference ref)) rfl (by decide)
        have nested : columnsOfJson? .kept levels _ = _ := columns ref.columns
        simp only [variant, taken]
        simp [variantFields, fieldsOfReference, Json.required, Json.withDefault,
          Scope.ofJson?_toJson, nested, Json.bind_if_some]
    | union name types isArray =>
        have taken := @Json.fields?_present ["typename", "members", "is_array"]
          (variantFields (.union name types isArray)) rfl (by decide)
        have inside : listOfJson? .kept levels _ = _ := members types
        simp only [variant, taken]
        simp [variantFields, Json.required, inside, Json.bind_if_some]
    | unknown text isArray =>
        have taken := @Json.fields?_present ["raw_text", "is_array"]
          (variantFields (.unknown text isArray)) rfl (by decide)
        simp only [variant, taken]
        simp [variantFields, Json.required]

/-- A column is read back by a reader that reads back its type with one level less. -/
theorem givesBack_column_of_type (column : Field)
    (type : GivesBack (ofJson? origin levels) toJson levels column.type) :
    GivesBack (columnOfJson? origin (levels + 1)) columnToJson (levels + 1) column := by
  have taken := @Json.fields?_present
    ["column", "prop_name", "type", "target", "optional", "error"] (columnFields column) rfl
    (by decide)
  have fits : (columnToJson column).depth ≤ levels + 1
      ↔ column.type.toJson.depth ≤ levels ∧ Fits levels (column.issue.map Issue.toJson) := by
    rw [columnToJson_eq_present, Json.depth_present_le_iff]
    simp [columnFields]
  have typed : ofJson? origin levels column.type.toJson = _ := type
  have issue := @Json.nullable_map Issue (Issue.ofJson? origin levels) Issue.toJson levels
    column.issue (fun issue => issue.toJson_eq_present ▸ Json.record_ne_null _)
    fun inner _ => Issue.givesBack origin levels inner
  apply GivesBack.of_iff fits
  rw [columnToJson_eq_present, columnOfJson?, taken]
  simp only [columnFields, List.map_cons, List.map_nil, Option.bind_eq_bind, Option.bind_some,
    Json.required, Json.text?_ofText, typed, Json.nullable_map_ofText, Json.withDefault,
    Json.bool?_bool, issue, Json.bind_if_some, ite_and]
  obtain ⟨key, name, type, target, isOptional, issue⟩ := column
  rfl

end Levels

theorem givesBack_levels (levels : Nat) : ∀ origin,
    (∀ type, GivesBack (ofJson? origin levels) toJson levels type)
      ∧ (∀ types, GivesBack (listOfJson? origin levels)
          (fun types => .array (types.map toJson)) levels types)
      ∧ (∀ column, GivesBack (columnOfJson? origin levels) columnToJson levels column)
      ∧ ∀ columns, GivesBack (columnsOfJson? origin levels)
          (fun columns => .array (columns.map columnToJson)) levels columns := by
  induction levels with
  | zero =>
      intro origin
      refine ⟨fun type => ?_, fun types => ?_, fun column => ?_, fun columns => ?_⟩
      · exact Json.givesBack_zero_of_record type.toJson_eq_present
      · exact Json.givesBack_zero (Nat.succ_pos _)
      · exact Json.givesBack_zero_of_record (columnToJson_eq_present column)
      · exact Json.givesBack_zero (Nat.succ_pos _)
  | succ levels inductionHypothesis =>
      intro origin
      obtain ⟨each, -, eachColumn, -⟩ := inductionHypothesis origin
      obtain ⟨-, members, -, columns⟩ := inductionHypothesis .kept
      exact ⟨fun type => givesBack_of_parts type members columns,
        fun types => Json.list?_map fun type _ => each type,
        fun column => givesBack_column_of_type column (each column.type),
        fun columns => Json.list?_map fun column _ => eachColumn column⟩

/-- **A type is read back** by every reader that allows the levels that its document opens,
and by no other. -/
theorem givesBack (origin : Json.Origin) (levels : Nat) (type : ColumnType) :
    GivesBack (ofJson? origin levels) toJson levels type :=
  (givesBack_levels levels origin).1 type

theorem givesBack_column (origin : Json.Origin) (levels : Nat) (column : Field) :
    GivesBack (columnOfJson? origin levels) columnToJson levels column :=
  (givesBack_levels levels origin).2.2.1 column

theorem givesBack_columns (origin : Json.Origin) (levels : Nat) (columns : List Field) :
    GivesBack (columnsOfJson? origin levels) (fun columns => .array (columns.map columnToJson))
      levels columns :=
  (givesBack_levels levels origin).2.2.2 columns

end ColumnType

namespace Reference

theorem toJson_eq_present (ref : Ref) :
    toJson ref = .record (Json.present (ColumnType.fieldsOfReference ref)) := by
  rw [toJson, ColumnType.referenceFields_eq_present]

theorem textual_toJson (ref : Ref) : Textual (toJson ref) := by
  rw [toJson_eq_present]
  exact Json.textual_present (ColumnType.isTextual_fieldsOfReference ref)

/-- A reference that stands alone is read back like one that is a type. -/
theorem givesBack (levels : Nat) (ref : Ref) : GivesBack (ofJson? levels) toJson levels ref := by
  cases levels with
  | zero => exact Json.givesBack_zero_of_record (toJson_eq_present ref)
  | succ levels =>
      have taken := @Json.fields?_present
        ["uri", "scope", "selector", "typename", "is_array", "nested_types"]
        (ColumnType.fieldsOfReference ref) rfl (by decide)
      have fits : (toJson ref).depth ≤ levels + 1
          ↔ (Json.array (ref.columns.map ColumnType.columnToJson)).depth ≤ levels := by
        rw [toJson_eq_present, Json.depth_present_le_iff]
        simp [ColumnType.fieldsOfReference]
      have nested : ColumnType.columnsOfJson? .document levels _ = _ :=
        ColumnType.givesBack_columns .document levels ref.columns
      apply GivesBack.of_iff fits
      rw [toJson_eq_present, ofJson?, taken]
      simp [ColumnType.fieldsOfReference, Json.required, Json.withDefault,
        Scope.ofJson?_toJson, nested, Json.bind_if_some]

end Reference

end Typesheet
