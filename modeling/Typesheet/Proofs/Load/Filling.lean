import Typesheet.Proofs.Load.Deep
import Typesheet.Proofs.Load.Selection
import Typesheet.Proofs.Text.Trim

/-!
Contract: a load changes nothing of a column but what its references hold.

Owns: types with their references erased; what a property declares of a column; and the theorem
that every column of a load, at any depth, is the declared one once its references are erased,
and that its references to one address hold the same.

References are collected by one traversal of a type and written by another, and between the two
there is one answer for each address.  Erasing after writing undoes the writing at every
reference, because a reference that reading yields holds nothing (`isStub_of_mem_columnsOf`).
-/

set_option autoImplicit false

namespace Typesheet

/-- The reference without what it was filled with. -/
def Reference.erased (ref : Ref) : Ref :=
  ref.resolve [] []

/-- The type with all its references erased, those inside other references along with these. -/
def ColumnType.erased (type : ColumnType) : ColumnType :=
  type.mapReferences Reference.erased

/-- A column is what a property declares under its key, but for what its references hold and its
issue.  A final `?` of the property name is no part of the name: it marks the column as one that
may be left empty. -/
structure Property.Declares (property : Property) (scheme : Scheme) (column : Field) : Prop where
  type : ∃ text, property.typeText = some text
    ∧ column.type.erased = ColumnType.parse scheme (Text.trim text)
  marked : ∀ stem, Text.trim property.name = stem ++ ['?'] →
    column.name = Text.trimEnd stem ∧ column.isOptional = true
  unmarked : (∀ stem, Text.trim property.name ≠ stem ++ ['?']) →
    column.name = Text.trim property.name ∧ column.isOptional = property.isOptional
  target : ∀ target, column.target = some target
    ↔ property.target = some target ∧ ¬ Text.IsBlank target

/-- A column is one that a namespace declares, as its store answers, with its references filled
in or not, and those to one address alike. -/
structure Column.FilledFrom (column : Field) (scheme : Scheme) (source : Source)
    (uri : NamespaceUri) : Prop where
  declared : ∃ listing registration entry property,
    source.definition uri = .ok (listing, registration)
      ∧ (column.key, entry) ∈ listing.columns ∧ entry.property = some property
      ∧ property.Declares scheme column
  agree : ∀ ref ∈ column.type.references, ∀ other ∈ column.type.references,
    ref.uri = other.uri → ref.typename = other.typename ∧ ref.columns = other.columns

namespace Loader

/-! ## The columns that properties declare -/

theorem propertyName_of_marked {declared stem : Text}
    (marked : Text.trim declared = stem ++ ['?']) :
    propertyName declared = (Text.trimEnd stem, true) := by
  have stripped : ['?'].isSuffixOf? (Text.trim declared) = some stem := by
    rw [List.isSuffixOf?_eq_some_iff_append_eq, marked]
  unfold propertyName
  simp only [stripped]

theorem propertyName_of_unmarked {declared : Text}
    (unmarked : ∀ stem, Text.trim declared ≠ stem ++ ['?']) :
    propertyName declared = (Text.trim declared, false) := by
  unfold propertyName
  cases stripped : ['?'].isSuffixOf? (Text.trim declared) with
  | none => simp only [stripped]
  | some stem =>
      rw [List.isSuffixOf?_eq_some_iff_append_eq] at stripped
      exact absurd stripped.symm (unmarked stem)

theorem erased_parse (scheme : Scheme) (text : Text) :
    (ColumnType.parse scheme text).erased = ColumnType.parse scheme text := by
  apply ColumnType.mapReferences_eq_self
  intro ref member
  have stub := ColumnType.isStub_of_mem_references_parse scheme text ref member
  show { ref with typename := [], columns := [] } = ref
  rw [← stub.typename_eq_nil, ← stub.columns_eq_nil]

theorem declares_propertyColumn (scheme : Scheme) (key : Text) {property : Property} {text : Text}
    (typed : property.typeText = some text) :
    property.Declares scheme (propertyColumn scheme key property) where
  type := by
    refine ⟨text, typed, ?_⟩
    show (ColumnType.parse scheme (Text.trim (property.typeText.getD []))).erased = _
    rw [erased_parse, typed, Option.getD_some]
  marked stem marked := by
    show (propertyName property.name).1 = _
      ∧ (property.isOptional || (propertyName property.name).2) = _
    rw [propertyName_of_marked marked]
    exact ⟨rfl, Bool.or_true _⟩
  unmarked unmarked := by
    show (propertyName property.name).1 = _
      ∧ (property.isOptional || (propertyName property.name).2) = _
    rw [propertyName_of_unmarked unmarked]
    exact ⟨rfl, Bool.or_false _⟩
  target target := by
    show property.target.filter (fun target => !Text.isBlankText target) = some target ↔ _
    rw [Option.filter_eq_some_iff]
    simp [Text.isBlankText, ← Text.trim_eq_nil_iff]

/-- Every declared column is declared by the property of an entry under its key. -/
theorem exists_declares_of_mem_declaredColumns {scheme : Scheme} {listing : Listing}
    {field : Field} (declared : field ∈ declaredColumns scheme listing) :
    ∃ entry property, (field.key, entry) ∈ listing.columns ∧ entry.property = some property
      ∧ property.Declares scheme field := by
  obtain ⟨entry, listed, made⟩ := mem_declaredColumns_iff.mp declared
  obtain ⟨_, property, found, typed, same⟩ := declaredColumn_eq_some_iff.mp made
  refine ⟨entry, property, listed, found, ?_⟩
  rw [← same]
  cases text : property.typeText with
  | none =>
      rw [text] at typed
      exact absurd rfl typed
  | some text => exact declares_propertyColumn scheme field.key text

/-! ## Filling in and erasing -/

section Level

variable {loader : Loader} {uri : NamespaceUri} {field : Field}

/-- Erasing takes back what filling in has written. -/
theorem erased_resolvedColumn (resolution : Link → Resolution) (field : Field) :
    (resolvedColumn resolution field).type.erased = field.type.erased := by
  show (field.type.mapReferences (fillFrom resolution field)).mapReferences _ = _
  rw [ColumnType.mapReferences_mapReferences, ColumnType.erased]
  congr 1
  funext ref
  obtain ⟨typename, columns, filled⟩ := fillFrom_eq_resolve_or_self resolution field ref
  rw [filled]
  rfl

/-- What a reference of a declared column is filled with depends on its address only. -/
theorem fillFrom_congr (resolution : Link → Resolution) (declared : field ∈ loader.columnsOf uri)
    {ref other : Ref} (member : ref ∈ field.type.references)
    (otherMember : other ∈ field.type.references) (same : ref.uri = other.uri) :
    (fillFrom resolution field ref).typename = (fillFrom resolution field other).typename
      ∧ (fillFrom resolution field ref).columns = (fillFrom resolution field other).columns := by
  have stub := isStub_of_mem_columnsOf declared member
  have otherStub := isStub_of_mem_columnsOf declared otherMember
  have bothEmpty : ref.typename = other.typename ∧ ref.columns = other.columns := by
    rw [stub.typename_eq_nil, stub.columns_eq_nil, otherStub.typename_eq_nil,
      otherStub.columns_eq_nil]
    exact ⟨rfl, rfl⟩
  unfold fillFrom
  rw [same]
  split
  · split
    · exact ⟨rfl, rfl⟩
    · exact bothEmpty
  · exact bothEmpty

/-- Filling in leaves the address of a reference. -/
theorem uri_fillFrom (resolution : Link → Resolution) (field : Field) (ref : Ref) :
    (fillFrom resolution field ref).uri = ref.uri := by
  obtain ⟨typename, columns, filled⟩ := fillFrom_eq_resolve_or_self resolution field ref
  rw [filled]

theorem filledFrom_resolvedColumn (resolution : Link → Resolution)
    (declared : field ∈ loader.columnsOf uri) :
    (resolvedColumn resolution field).FilledFrom loader.scheme loader.source uri where
  declared := by
    unfold columnsOf at declared
    split at declared
    case h_2 => exact absurd declared List.not_mem_nil
    case h_1 listing registration answered =>
      obtain ⟨entry, property, listed, found, declares⟩ :=
        exists_declares_of_mem_declaredColumns declared
      obtain ⟨text, typed, type⟩ := declares.type
      -- Only the type and the issue are new, and of the type only what is erased.
      exact ⟨listing, registration, entry, property, answered, listed, found,
        { declares with
          type := ⟨text, typed, (erased_resolvedColumn resolution field).trans type⟩ }⟩
  agree := by
    show ∀ ref ∈ (field.type.mapReferences (fillFrom resolution field)).references,
      ∀ other ∈ (field.type.mapReferences (fillFrom resolution field)).references, _
    rw [ColumnType.references_mapReferences]
    intro ref member other otherMember same
    obtain ⟨original, inType, rfl⟩ := List.mem_map.mp member
    obtain ⟨otherOriginal, otherInType, rfl⟩ := List.mem_map.mp otherMember
    rw [uri_fillFrom, uri_fillFrom] at same
    exact fillFrom_congr resolution declared inType otherInType same

end Level

/-! ## Any depth -/

section Depth

variable {loader : Loader} {answers : ChangingSource} {trail : List Link}
  {ancestors : List Text} {uri : NamespaceUri}

theorem filledFrom_of_mem_columns {column : Field}
    (member : column ∈ (loader.schemaFrom answers trail ancestors uri).columns) :
    column.FilledFrom loader.scheme (answers trail) uri := by
  rw [schemaFrom_eq] at member
  obtain ⟨field, declared, rfl⟩ := exists_declared_of_mem_columns member
  exact filledFrom_resolvedColumn _ declared

/-- A column inside a reference is a column of the namespace that the reference leads to, as the
store answered for it at some visit. -/
theorem exists_filledFrom_of_mentions {ref : Ref} {column : Field}
    (mentions : (loader.schemaFrom answers trail ancestors uri).Mentions ref)
    (member : column ∈ ref.columns) :
    ∃ trail owner selector, destination loader.scheme ref = .ok (owner, selector)
      ∧ column.FilledFrom loader.scheme (answers trail) owner := by
  obtain ⟨trail, ancestors, uri, listed⟩ := exists_visit_of_mentions mentions
  rw [schemaFrom_eq] at listed
  rcases reference_assemble_cases listed with ⟨_, noColumns⟩ | ⟨link, _, same, resolved⟩
  · rw [noColumns] at member
    exact absurd member List.not_mem_nil
  · obtain ⟨_, owner, selector, leads, _, _, _, filled⟩ := exists_target_of_resolutionFrom resolved
    rw [filled] at member
    exact ⟨_, owner, selector, same.symm.trans leads, filledFrom_of_mem_columns member⟩

end Depth

/-- **A load only fills in references.**  Whatever the store answers from visit to visit, every
column of the schema that a load of a root gives is what the property under its key declares: its
type with the references erased is what the trimmed type text is read as, so that addresses,
scopes, selectors, array flags and the members and names of unions are as they were read; and its
name, target and flag are those of the property, whether its references are resolved or not.  Two
of its references to one address hold the same.  Of a column that a reference at any depth holds,
all this is true of the namespace that the reference leads to. -/
theorem columns_filledFrom_of_load (loader : Loader) (answers : ChangingSource)
    (root : NamespaceUri) :
    let schema := loader.schemaFrom answers [] [] root
    (∀ column ∈ schema.columns, column.FilledFrom loader.scheme (answers []) root)
      ∧ (∀ ref, schema.Mentions ref → ∀ column ∈ ref.columns,
          ∃ trail owner selector, destination loader.scheme ref = .ok (owner, selector)
            ∧ column.FilledFrom loader.scheme (answers trail) owner)
      ∧ ∀ source before,
          (Client.load { loader with source } ⟨some root, before⟩).1.schema
            = loader.schemaFrom (fun _ => source) [] [] root := by
  intro schema
  refine ⟨?_, ?_, fun source before => loader.schema_client_load source root before⟩
  · exact fun column member => filledFrom_of_mem_columns member
  · exact fun ref mentions column member => exists_filledFrom_of_mentions mentions member

end Loader

end Typesheet
