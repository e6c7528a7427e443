import Typesheet.Declaration.Render
import Typesheet.Proofs.ColumnType.Stub

/-!
Contract: the types that a schema uses.

Owns: shapes, which are type names with the columns under them; the resolved references
of columns; which references are used through others; and all used references in
depth-first order.

The columns of a reference are smaller than the columns that the reference stands in, so
a shape is never used by its own columns.  Both the induction over references and the
listing of what they use rest on that size.
-/

set_option autoImplicit false

namespace Typesheet

namespace ColumnType

mutual

theorem sizeOf_le_of_mem_references {ref : Ref} : ∀ {type : ColumnType},
    ref ∈ type.references → sizeOf ref ≤ sizeOf type
  | .reference other, member => by
      rw [List.mem_singleton.mp member, ColumnType.reference.sizeOf_spec]
      omega
  | .union name members isArray, member => by
      have bound : sizeOf ref ≤ sizeOf members := sizeOf_le_of_mem_referencesAll member
      rw [ColumnType.union.sizeOf_spec]
      omega
  | .keyword .., member => absurd member List.not_mem_nil
  | .literal .., member => absurd member List.not_mem_nil
  | .unknown .., member => absurd member List.not_mem_nil

theorem sizeOf_le_of_mem_referencesAll {ref : Ref} : ∀ {types : List ColumnType},
    ref ∈ referencesAll types → sizeOf ref ≤ sizeOf types
  | [], member => absurd member List.not_mem_nil
  | type :: rest, member => by
      rw [List.cons.sizeOf_spec]
      rcases List.mem_append.mp member with inFirst | inRest
      · have bound := sizeOf_le_of_mem_references inFirst
        omega
      · have bound := sizeOf_le_of_mem_referencesAll inRest
        omega

end

end ColumnType

namespace Declaration

/-- A type name with the columns under it. -/
abbrev Shape := Text × List Field

end Declaration

open Declaration (Shape)

def Reference.shape (ref : Ref) : Shape :=
  (ref.typename, ref.columns)

namespace Declaration

/-- The resolved references of columns in order, found through unions but not inside the
columns of a reference. -/
def resolvedIn (columns : List Field) : List Ref :=
  (columns.flatMap fun column => column.type.references).filter Reference.isResolved

theorem mem_resolvedIn_iff {columns : List Field} {ref : Ref} :
    ref ∈ resolvedIn columns
      ↔ (∃ field ∈ columns, ref ∈ field.type.references) ∧ ref.isResolved = true := by
  rw [resolvedIn, List.mem_filter, List.mem_flatMap]

theorem sizeOf_columns_lt {columns : List Field} {ref : Ref} (member : ref ∈ resolvedIn columns) :
    sizeOf ref.columns < sizeOf columns := by
  obtain ⟨⟨field, inColumns, inType⟩, _⟩ := mem_resolvedIn_iff.mp member
  have inList := List.sizeOf_lt_of_mem inColumns
  have reference := ColumnType.sizeOf_le_of_mem_references inType
  obtain ⟨key, name, type, target, isOptional, issue⟩ := field
  obtain ⟨uri, scope, selector, typename, isArray, columns⟩ := ref
  rw [Column.mk.sizeOf_spec] at inList
  rw [Reference.mk.sizeOf_spec] at reference
  show sizeOf columns < _
  change _ ≤ sizeOf type at reference
  omega

/-- **Induction over references.**  What holds of a reference whenever it holds of all
resolved references in its columns holds of every reference. -/
theorem reference_induction {motive : Ref → Prop}
    (step : ∀ ref, (∀ inner ∈ resolvedIn ref.columns, motive inner) → motive ref)
    (ref : Ref) : motive ref := by
  induction size : sizeOf ref.columns using Nat.strongRecOn generalizing ref with
  | ind size inductionHypothesis =>
      subst size
      apply step
      intro inner member
      exact inductionHypothesis _ (sizeOf_columns_lt member) inner rfl

/-! ## Use at any depth -/

/-- The second reference is the first, or is used by the columns of the first, through
resolved references only. -/
inductive Reaches : Ref → Ref → Prop where
  | self (ref : Ref) : Reaches ref ref
  | within {outer inner ref : Ref} (member : inner ∈ resolvedIn outer.columns)
      (reaches : Reaches inner ref) : Reaches outer ref

/-- All references that columns use, each before those that its own columns use. -/
def usedBy (columns : List Field) : List Ref :=
  (resolvedIn columns).attach.flatMap fun ⟨ref, _⟩ => ref :: usedBy ref.columns
termination_by sizeOf columns
decreasing_by exact sizeOf_columns_lt (by assumption)

/-- A reference and what its columns use, in depth-first order. -/
def preorder (ref : Ref) : List Ref :=
  ref :: usedBy ref.columns

theorem usedBy_eq_flatMap (columns : List Field) :
    usedBy columns = (resolvedIn columns).flatMap preorder := by
  rw [usedBy]
  conv => rhs; rw [← List.attach_map_subtype_val (resolvedIn columns), List.flatMap_map]
  rfl

theorem mem_preorder_iff {outer ref : Ref} : ref ∈ preorder outer ↔ Reaches outer ref := by
  induction outer using reference_induction with
  | step outer inductionHypothesis =>
      rw [preorder, usedBy_eq_flatMap, List.mem_cons, List.mem_flatMap]
      constructor
      · rintro (rfl | ⟨inner, member, below⟩)
        · exact .self _
        · exact .within member ((inductionHypothesis inner member).mp below)
      · intro reaches
        cases reaches with
        | self => exact .inl rfl
        | within member below =>
            exact .inr ⟨_, member, (inductionHypothesis _ member).mpr below⟩

end Declaration

end Typesheet
