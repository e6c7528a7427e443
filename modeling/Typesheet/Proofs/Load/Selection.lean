import Typesheet.Proofs.Load.Changing

/-!
Contract: a resolved reference to a column holds the column.

Owns: that every reference of a schema, however deep, stands directly in the schema of some
visit; what the selector of a reference to a column is; and that a resolved one selects a
column among those that it is filled with.

The test that a column exists is made on the columns of the namespace that a link leads to,
and the selection later on those that a reference of the column was filled with.  They are the
same columns, and the selector is the same too, because all references of one column to one
address are read from that address.
-/

set_option autoImplicit false

namespace Typesheet

/-- The selector of a reference picks one of the columns that it is filled with. -/
def Reference.SelectsColumn (ref : Ref) : Prop :=
  ∃ column ∈ ref.columns, ref.selectedColumn = some column

theorem Reference.selectsColumn_of_any {ref : Ref} {selector : Text}
    (selected : ref.selector = some selector)
    (found : ref.columns.any (Reference.selects selector) = true) : ref.SelectsColumn := by
  cases picked : ref.columns.find? (Reference.selects selector) with
  | none =>
      obtain ⟨column, member, fits⟩ := List.any_eq_true.mp found
      exact absurd fits (List.find?_eq_none.mp picked column member)
  | some column =>
      refine ⟨column, List.mem_of_find?_eq_some picked, ?_⟩
      rw [Reference.selectedColumn, selected, Option.bind_some, picked]

namespace Loader

section Depth

variable {loader : Loader} {answers : ChangingSource} {trail : List Link}
  {ancestors : List Text} {uri : NamespaceUri} {ref : Ref}

/-- A reference at any depth of a schema stands directly in the schema of some visit: what
contains it was filled with the columns of that schema. -/
theorem exists_visit_of_mentions
    (mentions : (loader.schemaFrom answers trail ancestors uri).Mentions ref) :
    ∃ trail ancestors uri, ref ∈ (loader.schemaFrom answers trail ancestors uri).references := by
  induction ancestors, uri using loader.load_induction generalizing trail with
  | level ancestors uri inductionHypothesis =>
      obtain ⟨outer, member, contains⟩ := mentions
      cases contains with
      | self => exact ⟨trail, ancestors, uri, member⟩
      | within inColumns inType below =>
          rw [schemaFrom_eq] at member
          rcases reference_assemble_cases member with ⟨_, noColumns⟩ | ⟨link, _, _, resolved⟩
          · rw [noColumns] at inColumns
            exact absurd inColumns List.not_mem_nil
          · obtain ⟨deeper, owner, _, _, filled⟩ := exists_child_of_resolutionFrom resolved
            rw [filled] at inColumns
            exact inductionHypothesis deeper owner
              ⟨_, Schema.mem_references_of_mem_columns inColumns inType, below⟩

/-- A link with a selector is resolved only when the columns that it came to have one that the
selector picks. -/
theorem any_selects_of_resolutionFrom {link : Link} {typename : Text} {columns : List Field}
    {owner : NamespaceUri} {selector : Text}
    (resolved : loader.resolutionFrom answers trail ancestors uri link
      = .resolved typename columns)
    (leads : link.destination loader.scheme = .ok (owner, some selector)) :
    columns.any (Reference.selects selector) = true := by
  unfold resolutionFrom at resolved
  by_cases visited : owner.text ∈ ancestors ++ [uri.text]
  · rw [resolveTo_of_circular leads visited] at resolved
    exact absurd resolved (by simp)
  · by_cases deeper : (ancestors ++ [uri.text]).length < loader.maxDepth
    · rw [resolveTo_of_enters leads visited deeper] at resolved
      obtain ⟨_, found, _, filled⟩ := settle_eq_resolved_iff.mp resolved
      rw [filled]
      exact found selector rfl
    · rw [resolveTo_of_tooDeep leads visited (Nat.not_lt.mp deeper)] at resolved
      exact absurd resolved (by simp)

/-- An implements clause refers to a namespace as a whole. -/
theorem scope_of_baseType {resolution : Link → Resolution} {type : ColumnType}
    (based : loader.baseType resolution uri = some type) (member : ref ∈ type.references) :
    ref.scope = .whole := by
  unfold baseType at based
  extract_lets link at based
  split at based
  case isTrue => exact absurd based (by simp)
  case isFalse =>
    split at based
    case h_1 => exact absurd based (by simp)
    case h_2 =>
      split at based
      all_goals
        rw [← Option.some.inj based] at member
        rw [List.mem_singleton.mp member]
        rfl

/-- Filling a reference in leaves its address, its scope and its selector. -/
theorem fillFrom_eq_resolve_or_self (resolution : Link → Resolution) (field : Field) (ref : Ref) :
    ∃ typename columns, fillFrom resolution field ref
      = { ref with typename, columns } := by
  unfold fillFrom
  split
  · split
    · exact ⟨_, _, rfl⟩
    · exact ⟨ref.typename, ref.columns, rfl⟩
  · exact ⟨ref.typename, ref.columns, rfl⟩

/-- The selector of a reference to a column is the one that its address is read with.  Such a
reference was declared by a column, since implements clauses refer to namespaces. -/
theorem selector_of_mem_references_assemble {resolution : Link → Resolution}
    (member : ref ∈ (loader.assemble uri resolution).references)
    (toColumn : ref.scope = .column) :
    ∃ column, loader.scheme.readColumn ref.uri = .ok column
      ∧ ref.selector = some column.selector := by
  rcases mem_references_assemble member with ⟨type, based, inType⟩ | ⟨field, declared, inType⟩
  · rw [scope_of_baseType based inType] at toColumn
    exact absurd toColumn (by simp)
  · change ref ∈ (field.type.mapReferences _).references at inType
    rw [ColumnType.references_mapReferences] at inType
    obtain ⟨original, inOriginal, rfl⟩ := List.mem_map.mp inType
    obtain ⟨typename, columns, filled⟩ := fillFrom_eq_resolve_or_self resolution field original
    rw [filled] at toColumn ⊢
    cases isStub_of_mem_columnsOf declared inOriginal with
    | toNamespace isNamespace => exact absurd toColumn (by simp [Reference.toNamespace])
    | @toColumn uri column isArray isColumn read => exact ⟨column, read, rfl⟩

/-- A resolved reference to a column in the schema of a visit selects a column. -/
theorem selectsColumn_of_mem_references
    (member : ref ∈ (loader.schemaFrom answers trail ancestors uri).references)
    (isResolved : ref.isResolved = true) (toColumn : ref.scope = .column) :
    ref.SelectsColumn := by
  rw [schemaFrom_eq] at member
  obtain ⟨column, read, selected⟩ := selector_of_mem_references_assemble member toColumn
  have leads : destination loader.scheme ref = .ok (column.owner, some column.selector) := by
    change loader.scheme.readColumn ref.uri = .ok column at read
    rw [destination, toColumn]
    simp only [read, Except.map]
  rcases reference_assemble_cases member with ⟨noName, _⟩ | ⟨link, _, same, resolved⟩
  · simp [Reference.isResolved, noName] at isResolved
  · exact Reference.selectsColumn_of_any selected
      (any_selects_of_resolutionFrom resolved (same.trans leads))

/-- **A resolved reference to a column selects one** of the columns that it holds, at any
depth of a loaded schema. -/
theorem selectsColumn_of_mentions
    (mentions : (loader.schemaFrom answers trail ancestors uri).Mentions ref)
    (isResolved : ref.isResolved = true) (toColumn : ref.scope = .column) :
    ref.SelectsColumn := by
  obtain ⟨trail, ancestors, uri, member⟩ := exists_visit_of_mentions mentions
  exact selectsColumn_of_mem_references member isResolved toColumn

end Depth

end Loader

end Typesheet
