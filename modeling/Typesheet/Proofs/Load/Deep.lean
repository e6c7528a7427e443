import Typesheet.Proofs.Load.Changing

/-!
Contract: a reference that is resolved is resolved to any depth.

Owns: references that are resolved to any depth; the issue of a column in terms of its
references, and the implements clause of a schema in terms of its issue; and the theorem
that a load leaves no reference half resolved, even when the store changes under it.

A column collects its references in one traversal and fills them in by another, with one
link for each address between the two.  `isResolved_fillFrom_iff` is where they meet: a
reference of a declared column is filled exactly when the link to its address left no
issue.
-/

set_option autoImplicit false

namespace Typesheet

/-- A reference that is resolved to any depth: it has a type name, no column that it
holds has an issue, and every reference in these columns is resolved to any depth. -/
inductive Reference.IsDeep : Ref → Prop where
  | intro {ref : Ref} (isResolved : ref.isResolved = true)
      (noIssue : ∀ field ∈ ref.columns, field.issue = none)
      (inner : ∀ field ∈ ref.columns, ∀ inner ∈ field.type.references, IsDeep inner) :
      IsDeep ref

theorem Reference.isResolved_resolve_iff {ref : Ref} {typename : Text} {columns : List Field} :
    (ref.resolve typename columns).isResolved = true ↔ typename ≠ [] := by
  simp [Reference.isResolved, Reference.resolve]

theorem Reference.isResolved_eq_false_iff {ref : Ref} :
    ref.isResolved = false ↔ ref.typename = [] := by
  simp [Reference.isResolved]

namespace Loader

/-- What resolved links come to has a type name. -/
def Names (resolution : Link → Resolution) : Prop :=
  ∀ link typename columns, resolution link = .resolved typename columns → typename ≠ []

/-- The issue that the implements clause of a namespace leaves. -/
def baseIssue (loader : Loader) (resolution : Link → Resolution) (uri : NamespaceUri) :
    Option Issue :=
  if loader.baseOf uri = [] then none
  else (resolution (.base uri (loader.baseOf uri))).issue?

/-- Resolving the implements clause of a namespace fails: it is not blank, and the link
that it is was not resolved. -/
def BaseFails (loader : Loader) (resolution : Link → Resolution) (uri : NamespaceUri) : Prop :=
  loader.baseOf uri ≠ []
    ∧ ∃ issue, resolution (.base uri (loader.baseOf uri)) = .failed issue

section Level

variable {loader : Loader} {uri : NamespaceUri} {resolution : Link → Resolution}
  {field : Field}

/-! ## Columns -/

theorem find?_columnLinks {link : Link} (linked : link ∈ columnLinks field) :
    (columnLinks field).find? (fun other => other.ref.uri = link.ref.uri) = some link := by
  have distinct : ((columnLinks field).map fun other => other.ref.uri).Nodup := by
    unfold columnLinks
    rw [List.map_map]
    exact nodup_uri_firstPerUri field.type.references
  cases found : (columnLinks field).find? fun other => other.ref.uri = link.ref.uri with
  | none => simpa using List.find?_eq_none.mp found link linked
  | some other =>
      have same : other.ref.uri = link.ref.uri := by simpa using List.find?_some found
      rw [List.inj_on_of_nodup_map distinct (List.mem_of_find?_eq_some found) linked same]

/-- A reference of a declared column is filled in exactly when the link to its address
left no issue. -/
theorem isResolved_fillFrom_iff (named : Names resolution)
    (declared : field ∈ loader.columnsOf uri) {ref : Ref}
    (member : ref ∈ field.type.references) {link : Link} (linked : link ∈ columnLinks field)
    (same : link.ref.uri = ref.uri) :
    (fillFrom resolution field ref).isResolved = true ↔ (resolution link).issue? = none := by
  unfold fillFrom
  rw [← same, find?_columnLinks linked]
  cases resolved : resolution link with
  | failed issue =>
      have unresolved := (isStub_of_mem_columnsOf declared member).typename_eq_nil
      simp [resolved, Reference.isResolved, unresolved, Resolution.issue?]
  | resolved typename columns =>
      have isNamed := named link typename columns resolved
      simp [resolved, Reference.isResolved_resolve_iff, isNamed, Resolution.issue?]

/-- **A column has no issue** exactly when all of its references are resolved. -/
theorem issue_resolvedColumn_eq_none_iff (named : Names resolution)
    (declared : field ∈ loader.columnsOf uri) :
    (resolvedColumn resolution field).issue = none
      ↔ ∀ ref ∈ (resolvedColumn resolution field).type.references,
          ref.isResolved = true := by
  show columnIssue _ (columnFailures resolution field) = none
    ↔ ∀ ref ∈ (field.type.mapReferences (fillFrom resolution field)).references, _
  rw [columnIssue_eq_none_iff, columnFailures, List.filterMap_eq_nil_iff,
    ColumnType.references_mapReferences, List.forall_mem_map]
  constructor
  · intro noIssue ref member
    obtain ⟨link, linked, same, _⟩ := exists_link_of_mem_references declared member
    exact (isResolved_fillFrom_iff named declared member linked same).mpr (noIssue link linked)
  · intro allResolved link linked
    obtain ⟨first, listed, rfl⟩ := List.mem_map.mp linked
    have member := mem_of_mem_firstPerUri listed
    exact (isResolved_fillFrom_iff named declared member linked rfl).mp
      (allResolved first member)

/-! ## The implements clause -/

theorem filterMap_baseLinks :
    ((loader.baseLinks uri).filterMap fun link => (resolution link).issue?)
      = (loader.baseIssue resolution uri).toList := by
  unfold baseLinks baseIssue
  split
  · rfl
  · cases issue : (resolution (.base uri (loader.baseOf uri))).issue? <;> simp [issue]

theorem baseIssue_eq_none_iff :
    loader.baseIssue resolution uri = none ↔ ¬ loader.BaseFails resolution uri := by
  unfold baseIssue BaseFails
  by_cases noBase : loader.baseOf uri = []
  · simp [noBase]
  · cases resolution (.base uri (loader.baseOf uri)) <;> simp [noBase, Resolution.issue?]

/-- The implements clause shows as an unresolved reference, or leaves an issue and does
not show at all, exactly when resolving it fails. -/
theorem baseType_unresolved_iff (named : Names resolution) :
    ((∃ ref, loader.baseType resolution uri = some (.reference ref) ∧ ref.isResolved = false)
        ∨ (loader.baseType resolution uri = none
          ∧ loader.baseIssue resolution uri ≠ none))
      ↔ loader.BaseFails resolution uri := by
  rw [ne_eq, baseIssue_eq_none_iff, not_not]
  constructor
  · rintro (⟨ref, shown, unresolved⟩ | ⟨_, fails⟩)
    · unfold baseType at shown
      extract_lets link at shown
      split at shown
      case isTrue => exact absurd shown (by simp)
      case isFalse hasBase =>
        split at shown
        case h_1 => exact absurd shown (by simp)
        case h_2 =>
          split at shown
          case h_1 typename columns resolved =>
            obtain rfl : link.ref.resolve typename columns = ref := by simpa using shown
            rw [Reference.isResolved_eq_false_iff] at unresolved
            exact absurd unresolved (named link typename columns resolved)
          case h_2 issue failed => exact ⟨hasBase, issue, failed⟩
    · exact fails
  · rintro ⟨hasBase, issue, failed⟩
    have fails : loader.BaseFails resolution uri := ⟨hasBase, issue, failed⟩
    unfold baseType
    rw [if_neg hasBase, failed]
    cases (Link.base uri (loader.baseOf uri)).destination loader.scheme with
    | error error => exact .inr ⟨rfl, fails⟩
    | ok target => exact .inl ⟨_, rfl, rfl⟩

/-! ## The schema of a level -/

theorem assemble_of_defines (resolution : Link → Resolution) (defined : loader.defines uri = true) :
    (loader.assemble uri resolution).implements = loader.baseType resolution uri
      ∧ (loader.assemble uri resolution).columns
        = (loader.columnsOf uri).map (resolvedColumn resolution)
      ∧ (loader.assemble uri resolution).issues = loader.levelIssues resolution uri := by
  unfold defines at defined
  unfold assemble
  split at defined
  case h_1 listing registration answered => simp [answered, defined]
  case h_2 => exact absurd defined (by simp)

theorem assemble_of_not_defines (resolution : Link → Resolution)
    (notDefined : loader.defines uri = false) :
    (loader.assemble uri resolution).implements = none
      ∧ (loader.assemble uri resolution).columns = [] := by
  unfold defines at notDefined
  unfold assemble
  split at notDefined
  case h_1 listing registration answered => simp [answered, notDefined]
  case h_2 reason refused => simp [refused]

theorem issues_assemble_of_defines (defined : loader.defines uri = true) :
    (loader.assemble uri resolution).issues
      = (loader.baseIssue resolution uri).toList
        ++ (loader.assemble uri resolution).columns.filterMap Column.issue := by
  obtain ⟨_, columns, issues⟩ := assemble_of_defines resolution defined
  rw [issues, columns, levelIssues, filterMap_baseLinks, List.filterMap_map]
  rfl

theorem isOk_assemble_iff_columns (defined : loader.defines uri = true) :
    (loader.assemble uri resolution).isOk = true
      ↔ (∀ column ∈ (loader.assemble uri resolution).columns, column.issue = none)
        ∧ ¬ loader.BaseFails resolution uri := by
  rw [Schema.isOk, List.isEmpty_iff, issues_assemble_of_defines defined, List.append_eq_nil_iff,
    Option.toList_eq_nil_iff, List.filterMap_eq_nil_iff, baseIssue_eq_none_iff, and_comm]

theorem exists_declared_of_mem_columns {column : Field}
    (member : column ∈ (loader.assemble uri resolution).columns) :
    ∃ field ∈ loader.columnsOf uri, column = resolvedColumn resolution field := by
  cases defined : loader.defines uri with
  | false =>
      rw [(assemble_of_not_defines resolution defined).2] at member
      exact absurd member List.not_mem_nil
  | true =>
      rw [(assemble_of_defines resolution defined).2.1] at member
      obtain ⟨field, declared, rfl⟩ := List.mem_map.mp member
      exact ⟨field, declared, rfl⟩

theorem issue_eq_none_iff_of_mem_columns (named : Names resolution) {column : Field}
    (member : column ∈ (loader.assemble uri resolution).columns) :
    column.issue = none ↔ ∀ ref ∈ column.type.references, ref.isResolved = true := by
  obtain ⟨field, declared, rfl⟩ := exists_declared_of_mem_columns member
  exact issue_resolvedColumn_eq_none_iff named declared

end Level

/-! ## Any depth -/

theorem names_resolutionFrom (loader : Loader) (answers : ChangingSource) (trail : List Link)
    (ancestors : List Text) (uri : NamespaceUri) :
    Names (loader.resolutionFrom answers trail ancestors uri) := by
  intro link typename columns resolved
  obtain ⟨_, owner, _, named, _⟩ := exists_child_of_resolutionFrom resolved
  rw [named]
  exact Schema.displayTypename_ne_nil _

section Depth

variable {loader : Loader} {answers : ChangingSource} {trail : List Link}
  {ancestors : List Text} {uri : NamespaceUri}

theorem issue_eq_none_iff_references {column : Field}
    (member : column ∈ (loader.schemaFrom answers trail ancestors uri).columns) :
    column.issue = none ↔ ∀ ref ∈ column.type.references, ref.isResolved = true := by
  rw [schemaFrom_eq] at member
  exact issue_eq_none_iff_of_mem_columns (loader.names_resolutionFrom _ _ _ _) member

theorem issue_eq_none_of_isOk
    (isOk : (loader.schemaFrom answers trail ancestors uri).isOk = true) {column : Field}
    (member : column ∈ (loader.schemaFrom answers trail ancestors uri).columns) :
    column.issue = none := by
  rw [schemaFrom_eq] at isOk member
  have defined := (isOk_assemble_iff.mp isOk).1
  exact ((isOk_assemble_iff_columns defined).mp isOk).1 column member

/-- What a resolved link came to is a schema without issues, so no column of it has an issue
and every reference in its columns is resolved. -/
theorem issue_and_references_of_resolved {link : Link} {typename : Text} {columns : List Field}
    (resolved : loader.resolutionFrom answers trail ancestors uri link
      = .resolved typename columns) :
    ∀ field ∈ columns, field.issue = none
      ∧ ∀ ref ∈ field.type.references, ref.isResolved = true := by
  obtain ⟨_, owner, isOk, _, filled⟩ := exists_child_of_resolutionFrom resolved
  intro field member
  rw [filled] at member
  have noIssue := issue_eq_none_of_isOk isOk member
  exact ⟨noIssue, (issue_eq_none_iff_references member).mp noIssue⟩

/-- A reference of a schema at any depth is resolved to any depth if it is resolved, and holds
no columns if it is not. -/
theorem isDeep_of_mentions {ref : Ref}
    (mentions : (loader.schemaFrom answers trail ancestors uri).Mentions ref) :
    (ref.isResolved = true → ref.IsDeep) ∧ (ref.isResolved = false → ref.columns = []) := by
  induction ancestors, uri using loader.load_induction generalizing trail ref with
  | level ancestors uri inductionHypothesis =>
      obtain ⟨outer, member, contains⟩ := mentions
      rw [schemaFrom_eq] at member
      rcases reference_assemble_cases member with ⟨noName, noColumns⟩ | ⟨link, _, _, resolved⟩
      · have unresolved := Reference.isResolved_eq_false_iff.mpr noName
        cases contains with
        | self =>
            refine ⟨fun isResolved => ?_, fun _ => noColumns⟩
            rw [unresolved] at isResolved
            exact absurd isResolved Bool.false_ne_true
        | within inColumns =>
            rw [noColumns] at inColumns
            exact absurd inColumns List.not_mem_nil
      · have known := issue_and_references_of_resolved resolved
        obtain ⟨deeper, owner, _, named, filled⟩ := exists_child_of_resolutionFrom resolved
        -- Below this reference stands the schema of the namespace that its link leads to.
        have inner : ∀ field ∈ outer.columns, ∀ inner ∈ field.type.references,
            ∀ ref, inner.Contains ref →
              (ref.isResolved = true → ref.IsDeep)
                ∧ (ref.isResolved = false → ref.columns = []) := by
          intro field inColumns inner inType ref contained
          rw [filled] at inColumns
          exact inductionHypothesis deeper owner
            ⟨inner, Schema.mem_references_of_mem_columns inColumns inType, contained⟩
        have noIssue : ∀ field ∈ outer.columns, field.issue = none :=
          fun field listed => (known field listed).1
        have isNamed : outer.typename ≠ [] := by
          rw [named]
          exact Schema.displayTypename_ne_nil _
        cases contains with
        | self =>
            refine ⟨fun isResolved => .intro isResolved noIssue ?_,
              fun unresolved => absurd (Reference.isResolved_eq_false_iff.mp unresolved) isNamed⟩
            intro field listed ref inType
            have isResolved := (known field listed).2 ref inType
            exact (inner field listed ref inType ref (.self ref)).1 isResolved
        | within listed inType below => exact inner _ listed _ inType _ below

end Depth

/-- **Resolved means deeply resolved.**  Whatever the store answers from visit to visit, in
the schema that a load of a root gives a column is without issue exactly when each of its
references is resolved.  A reference at any depth that is not resolved holds no columns,
and one that is resolved is so to any depth.  Of a defined root, the implements clause is
left unresolved, or left out with an issue, exactly when resolving it fails; the issues are that
of the implements clause and then those of the columns in order, so there are none exactly
when no column has one and the implements clause did not fail.  Of a root that is not
defined there is no clause and no column, and the load is not without issues. -/
theorem deeply_resolved_of_load (loader : Loader) (answers : ChangingSource)
    (root : NamespaceUri) :
    let schema := loader.schemaFrom answers [] [] root
    let first := loader.facing answers []
    let resolution := loader.resolutionFrom answers [] [] root
    (∀ column ∈ schema.columns,
        (column.issue = none ↔ ∀ ref ∈ column.type.references, ref.isResolved = true))
      ∧ (∀ ref, schema.Mentions ref → ref.isResolved = false → ref.columns = [])
      ∧ (∀ ref, schema.Mentions ref → ref.isResolved = true → ref.IsDeep)
      ∧ (first.defines root = true →
          (((∃ ref, schema.implements = some (.reference ref) ∧ ref.isResolved = false)
              ∨ (schema.implements = none ∧ first.baseIssue resolution root ≠ none))
            ↔ first.BaseFails resolution root)
          ∧ schema.issues
            = (first.baseIssue resolution root).toList ++ schema.columns.filterMap Column.issue
          ∧ (schema.isOk = true
            ↔ (∀ column ∈ schema.columns, column.issue = none)
              ∧ ¬ first.BaseFails resolution root))
      ∧ (first.defines root = false →
          schema.implements = none ∧ schema.columns = [] ∧ schema.isOk = false)
      ∧ ∀ before, (Client.load loader ⟨some root, before⟩).1.schema
          = loader.schemaFrom (fun _ => loader.source) [] [] root := by
  intro schema first resolution
  have assembled : schema = first.assemble root resolution :=
    loader.schemaFrom_eq answers [] [] root
  have named : Names resolution := loader.names_resolutionFrom answers [] [] root
  refine ⟨fun _ member => issue_eq_none_iff_references member,
    fun _ mentions => (isDeep_of_mentions mentions).2,
    fun _ mentions => (isDeep_of_mentions mentions).1, ?_, ?_, ?_⟩
  · intro defined
    rw [assembled]
    refine ⟨?_, issues_assemble_of_defines defined, isOk_assemble_iff_columns defined⟩
    rw [(assemble_of_defines resolution defined).1]
    exact baseType_unresolved_iff named
  · intro notDefined
    rw [assembled]
    obtain ⟨noBase, noColumns⟩ := assemble_of_not_defines resolution notDefined
    refine ⟨noBase, noColumns, ?_⟩
    rw [← Bool.not_eq_true, isOk_assemble_iff, notDefined]
    simp
  · intro before
    exact (loader.schemaFrom_const [] [] root).symm

end Loader

end Typesheet
