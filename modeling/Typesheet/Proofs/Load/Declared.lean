import Mathlib.Data.List.Nodup
import Typesheet.Proofs.Column.Order
import Typesheet.Proofs.ColumnType.Stub
import Typesheet.Proofs.Load.Link

/-!
Contract: the references that a namespace declares.

Owns: where the types of columns come from, and the agreement of the links of a
column with the references in its type.  There is one link for each address, and it
leads where every reference to that address leads.
-/

set_option autoImplicit false

namespace Typesheet.Loader

/-! ## One reference for each address -/

theorem mem_of_mem_firstPerUri {ref : Ref} :
    ∀ {refs : List Ref}, ref ∈ firstPerUri refs → ref ∈ refs
  | first :: rest, member => by
      rcases List.mem_cons.mp member with rfl | later
      · exact List.mem_cons_self
      · exact List.mem_cons_of_mem _ (mem_of_mem_firstPerUri (List.mem_filter.mp later).1)

theorem exists_mem_firstPerUri {ref : Ref} :
    ∀ {refs : List Ref}, ref ∈ refs → ∃ first ∈ firstPerUri refs, first.uri = ref.uri
  | first :: rest, member => by
      by_cases same : first.uri = ref.uri
      · exact ⟨first, List.mem_cons_self, same⟩
      · rcases List.mem_cons.mp member with rfl | later
        · exact absurd rfl same
        · obtain ⟨other, listed, uriEq⟩ := exists_mem_firstPerUri later
          refine ⟨other, List.mem_cons_of_mem _ (List.mem_filter.mpr ⟨listed, ?_⟩), uriEq⟩
          rw [uriEq]
          exact decide_eq_true fun equal => same equal.symm

theorem nodup_uri_firstPerUri : ∀ refs : List Ref,
    ((firstPerUri refs).map fun ref => ref.uri).Nodup
  | [] => List.nodup_nil
  | first :: rest => by
      rw [firstPerUri, List.map_cons, List.nodup_cons]
      constructor
      · intro listed
        obtain ⟨other, kept, same⟩ := List.mem_map.mp listed
        exact of_decide_eq_true (List.mem_filter.mp kept).2 same
      · exact (nodup_uri_firstPerUri rest).sublist (List.filter_sublist.map _)

/-! ## Declared columns -/

/-- The column that a property declares under a key, whether or not it has a type. -/
def propertyColumn (scheme : Scheme) (key : Text) (property : Property) : Field where
  key
  name := (propertyName property.name).1
  type := ColumnType.parse scheme (Text.trim (property.typeText.getD []))
  target := property.target.filter fun target => !Text.isBlankText target
  isOptional := property.isOptional || (propertyName property.name).2

theorem declaredColumn_eq_some_iff {scheme : Scheme} {key : Text} {entry : Entry}
    {field : Field} :
    declaredColumn scheme key entry = some field
      ↔ Column.isKey key = true ∧ ∃ property, entry.property = some property
        ∧ Text.trim (property.typeText.getD []) ≠ []
        ∧ propertyColumn scheme key property = field := by
  unfold declaredColumn
  cases Column.isKey key with
  | false => simp
  | true =>
      simp only [↓reduceIte, true_and, Option.bind_eq_some_iff]
      refine exists_congr fun property => and_congr_right fun _ => ?_
      by_cases isBlank : Text.trim (property.typeText.getD []) = []
      · simp [isBlank]
      · simp only [isBlank, ↓reduceIte, ne_eq, not_false_eq_true, true_and, Option.some.injEq]
        rfl

theorem key_of_declaredColumn {scheme : Scheme} {key : Text} {entry : Entry} {field : Field}
    (declared : declaredColumn scheme key entry = some field) : field.key = key := by
  obtain ⟨_, property, _, _, rfl⟩ := declaredColumn_eq_some_iff.mp declared
  rfl

/-- The declared columns are those that the entries of the listing declare. -/
theorem mem_declaredColumns_iff {scheme : Scheme} {listing : Listing} {field : Field} :
    field ∈ declaredColumns scheme listing
      ↔ ∃ entry, (field.key, entry) ∈ listing.columns
        ∧ declaredColumn scheme field.key entry = some field := by
  unfold declaredColumns Column.sort
  rw [List.mem_mergeSort, List.mem_filterMap]
  constructor
  · rintro ⟨⟨key, entry⟩, listed, declared⟩
    obtain rfl := key_of_declaredColumn declared
    exact ⟨entry, listed, declared⟩
  · rintro ⟨entry, listed, declared⟩
    exact ⟨(field.key, entry), listed, declared⟩

theorem pairwise_columnsOf (loader : Loader) (uri : NamespaceUri) :
    (loader.columnsOf uri).Pairwise fun left right =>
      (Column.compareKeys left.key right.key).isLE := by
  unfold columnsOf
  split
  case h_1 => exact Column.pairwise_sort _
  case h_2 => exact List.Pairwise.nil

variable {loader : Loader} {uri : NamespaceUri} {field : Field}

theorem exists_parse_of_mem_columnsOf (declared : field ∈ loader.columnsOf uri) :
    ∃ text, field.type = ColumnType.parse loader.scheme text := by
  unfold columnsOf at declared
  split at declared
  case h_2 => exact absurd declared List.not_mem_nil
  case h_1 =>
    obtain ⟨entry, _, made⟩ := mem_declaredColumns_iff.mp declared
    obtain ⟨_, property, _, _, same⟩ := declaredColumn_eq_some_iff.mp made
    exact ⟨_, congrArg Column.type same.symm⟩

theorem isStub_of_mem_columnsOf (declared : field ∈ loader.columnsOf uri) {ref : Ref}
    (member : ref ∈ field.type.references) : ColumnType.IsStub loader.scheme ref := by
  obtain ⟨text, parsed⟩ := exists_parse_of_mem_columnsOf declared
  rw [parsed] at member
  exact ColumnType.isStub_of_mem_references_parse loader.scheme text ref member

theorem destination_congr {scheme : Scheme} {ref other : Ref} (uriEq : ref.uri = other.uri)
    (scopeEq : ref.scope = other.scope) :
    destination scheme ref = destination scheme other := by
  unfold destination
  rw [uriEq, scopeEq]

/-- Every reference of a declared column leads where the link to its address leads. -/
theorem destination_eq_of_mem_columnLinks (declared : field ∈ loader.columnsOf uri)
    {ref : Ref} (member : ref ∈ field.type.references) {link : Link}
    (linked : link ∈ columnLinks field) (same : link.ref.uri = ref.uri) :
    link.destination loader.scheme = destination loader.scheme ref := by
  obtain ⟨first, listed, rfl⟩ := List.mem_map.mp linked
  have stub := isStub_of_mem_columnsOf declared member
  have firstStub := isStub_of_mem_columnsOf declared (mem_of_mem_firstPerUri listed)
  apply destination_congr same
  show first.scope = ref.scope
  rw [stub.scope_eq, firstStub.scope_eq]
  rw [show first.uri = ref.uri from same]

/-- Every reference of a declared column has a link to its address, which leads where
the reference does. -/
theorem exists_link_of_mem_references (declared : field ∈ loader.columnsOf uri)
    {ref : Ref} (member : ref ∈ field.type.references) :
    ∃ link ∈ columnLinks field, link.ref.uri = ref.uri
      ∧ link.destination loader.scheme = destination loader.scheme ref := by
  obtain ⟨first, listed, same⟩ := exists_mem_firstPerUri member
  have linked : Link.column field first ∈ columnLinks field :=
    List.mem_map.mpr ⟨first, listed, rfl⟩
  exact ⟨_, linked, same, destination_eq_of_mem_columnLinks declared member linked same⟩

end Typesheet.Loader
