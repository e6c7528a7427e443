import Typesheet.Proofs.ColumnType.Recognition
import Typesheet.Proofs.Load.Kinds

/-!
Contract: loads never find a reference of a column to be no address.

Owns: the issues that blame no column for an invalid reference, at any depth, and the theorem that
under the standard scheme all places that recognize references agree, up to the issues of whole
loads.

The implements clause is the one place where a namespace is named without having been recognized
before, so an issue about an invalid reference is always about a clause.
-/

set_option autoImplicit false

namespace Typesheet

namespace Issue

/-- Neither the issue nor any below it says that a column refers to what is no address. -/
inductive SparesColumns : Issue → Prop where
  | of_ne {issue : Issue}
      (differs : ∀ key address reason,
        issue ≠ (Cause.invalidReference (.column key) address reason).issue)
      (inner : ∀ child ∈ issue.children, SparesColumns child) : SparesColumns issue

namespace SparesColumns

variable {issue : Issue} {issues : List Issue}

theorem ne_invalidReference (spares : issue.SparesColumns) (key address reason : Text) :
    issue ≠ (Cause.invalidReference (.column key) address reason).issue := by
  cases spares with
  | of_ne differs _ => exact differs key address reason

theorem of_occursIn (spare : ∀ outer ∈ issues, outer.SparesColumns)
    (occurs : issue.OccursIn issues) : issue.SparesColumns := by
  induction occurs with
  | here member => exact spare issue member
  | inside member _ inductionHypothesis =>
      cases spare _ member with
      | of_ne _ inner => exact inductionHypothesis inner

/-- An issue of another kind blames no reference for its address. -/
theorem of_kind (other : issue.kind ≠ .definition)
    (spare : ∀ child ∈ issue.children, child.SparesColumns) : issue.SparesColumns :=
  .of_ne (fun _ _ _ same => other (congrArg Issue.kind same)) spare

/-- What is said about a column starts with that word. -/
theorem of_head (other : issue.message.head? ≠ some 'C')
    (spare : ∀ child ∈ issue.children, child.SparesColumns) : issue.SparesColumns :=
  .of_ne (fun _ _ _ same => other (congrArg (fun issue => issue.message.head?) same)) spare

end SparesColumns

end Issue

namespace Loader

open Issue

variable {loader : Loader} {answers : ChangingSource} {trail : List Link}
  {ancestors chain : List Text} {uri owner : NamespaceUri} {link : Link}
  {selector : Option Text} {issue : Issue}

theorem sparesColumns_of_settle {site : Site} {address : Text} {child : Schema}
    (spare : ∀ inner ∈ child.issues, inner.SparesColumns)
    (failed : (settle site address owner selector child).issue? = some issue) :
    issue.SparesColumns := by
  unfold settle at failed
  split at failed
  case isTrue =>
    rw [← Option.some.inj failed]
    unfold childIssue
    split
    case h_1 => exact .of_kind IssueKind.noConfusion (List.forall_mem_nil _)
    case h_2 => exact .of_kind IssueKind.noConfusion spare
  case isFalse =>
    split at failed
    case h_1 => exact absurd failed (by simp [Resolution.issue?])
    case h_2 =>
      split at failed
      case isTrue => exact absurd failed (by simp [Resolution.issue?])
      case isFalse =>
        rw [← Option.some.inj failed]
        exact .of_kind IssueKind.noConfusion (List.forall_mem_nil _)

/-- A link leaves such an issue unless it is one of a column and cannot be read. -/
theorem sparesColumns_of_resolveTo
    {child : chain.length < loader.maxDepth → NamespaceUri → Schema}
    (readable : ∀ error, link.destination loader.scheme = .error error →
      ∃ holder, link.site = .implements holder)
    (spare : ∀ deeper owner, ∀ inner ∈ (child deeper owner).issues, inner.SparesColumns)
    (failed : (loader.resolveTo chain link child).issue? = some issue) :
    issue.SparesColumns := by
  cases loader.link_cases chain link with
  | unreadable refused =>
      obtain ⟨holder, isClause⟩ := readable _ refused
      rw [resolveTo_of_unreadable refused, isClause] at failed
      rw [← Option.some.inj failed]
      refine .of_head ?_ (List.forall_mem_nil _)
      change some '\x60' ≠ some 'C'
      decide
  | circular leads visited =>
      rw [resolveTo_of_circular leads visited] at failed
      rw [← Option.some.inj failed]
      exact .of_kind IssueKind.noConfusion (List.forall_mem_nil _)
  | tooDeep leads fresh atLimit =>
      rw [resolveTo_of_tooDeep leads fresh atLimit] at failed
      rw [← Option.some.inj failed]
      exact .of_kind IssueKind.noConfusion (List.forall_mem_nil _)
  | enters leads fresh deeper =>
      rw [resolveTo_of_enters leads fresh deeper] at failed
      exact sparesColumns_of_settle (spare deeper _) failed

theorem isStub_of_mem_links {field : Field} {ref : Ref}
    (listed : Link.column field ref ∈ loader.links uri) :
    ColumnType.IsStub loader.scheme ref := by
  cases List.mem_append.mp listed with
  | inl inBase =>
      rw [baseLinks] at inBase
      split at inBase
      case isTrue => exact absurd inBase List.not_mem_nil
      case isFalse => exact absurd (List.mem_singleton.mp inBase) Link.noConfusion
  | inr inColumns =>
      obtain ⟨declaring, declared, linked⟩ := List.mem_flatMap.mp inColumns
      obtain ⟨first, isFirst, same⟩ := List.mem_map.mp linked
      cases same
      exact isStub_of_mem_columnsOf declared (mem_of_mem_firstPerUri isFirst)

/-- Under the standard scheme every link that cannot be read is an implements clause. -/
theorem exists_implements_of_unreadable (listed : link ∈ loader.links uri)
    (standard : loader.scheme = .standard) {error : AddressError}
    (refused : link.destination loader.scheme = .error error) :
    ∃ holder, link.site = .implements holder := by
  cases link with
  | base holder target => exact ⟨holder.text, rfl⟩
  | column field ref =>
      exfalso
      have isStub := isStub_of_mem_links listed
      rw [standard] at isStub refused
      obtain ⟨owner, leads⟩ := (Grammar.followable_of_isStub isStub).followed
      exact absurd (leads.symm.trans refused) nofun

theorem sparesColumns_of_mem_levelIssues {resolution : Link → Resolution}
    (spare : ∀ link ∈ loader.links uri, ∀ issue, (resolution link).issue? = some issue →
      issue.SparesColumns)
    (member : issue ∈ loader.levelIssues resolution uri) : issue.SparesColumns := by
  cases List.mem_append.mp member with
  | inl inBase =>
      obtain ⟨link, listed, failed⟩ := List.mem_filterMap.mp inBase
      exact spare link (List.mem_append_left _ listed) issue failed
  | inr inColumns =>
      obtain ⟨field, declared, recorded⟩ := List.mem_filterMap.mp inColumns
      have failures : ∀ failure ∈ columnFailures resolution field, failure.SparesColumns := by
        intro failure inField
        obtain ⟨link, linked, failed⟩ := List.mem_filterMap.mp inField
        exact spare link (mem_links_of_mem_columnLinks declared linked) failure failed
      unfold columnIssue at recorded
      split at recorded
      case h_1 => exact absurd recorded (by simp)
      case h_2 only isOnly =>
        rw [← Option.some.inj recorded]
        exact failures only (isOnly ▸ List.mem_singleton_self only)
      case h_3 =>
        rw [← Option.some.inj recorded]
        exact .of_kind IssueKind.noConfusion failures

theorem sparesColumns_of_mem_issues (standard : loader.scheme = .standard)
    (member : issue ∈ (loader.schemaFrom answers trail ancestors uri).issues) :
    issue.SparesColumns := by
  induction ancestors, uri using loader.load_induction generalizing trail issue with
  | level ancestors uri inductionHypothesis =>
      cases definition_cases (loader.facing answers trail) uri with
      | inl refused =>
          obtain ⟨reason, refused⟩ := refused
          rw [schemaFrom_of_unanswered refused, List.mem_singleton] at member
          rw [member]
          refine .of_head ?_ (List.forall_mem_nil _)
          simp [Cause.issue, Issue.leaf]
      | inr answered =>
          cases answered with
          | inl undefined =>
              rw [schemaFrom_of_lacksDefinition undefined, List.mem_singleton] at member
              rw [member]
              exact .of_kind IssueKind.noConfusion (List.forall_mem_nil _)
          | inr defined =>
              rw [schemaFrom_eq, (assemble_of_defines _ defined).2.2] at member
              apply sparesColumns_of_mem_levelIssues ?_ member
              intro link listed issue failed
              apply sparesColumns_of_resolveTo ?_ ?_ failed
              · intro error refused
                exact exists_implements_of_unreadable listed standard refused
              · exact fun deeper owner inner => inductionHypothesis deeper owner

/-- **All readings of a reference agree** under the standard scheme.  A text passes the test for
references exactly where the reader of leaves finds one in it, and then the reader of expressions
finds the same.  Every reference in the type that an expression is read as, at any depth, is
unresolved, and the reader that following it asks for its scope accepts its address, with the
selector that it has.  So whatever the store answers from visit to visit, no issue of a load, at
any depth, says that a column refers to what is no address. -/
theorem readings_of_references_agree (text : Text) :
    (Expression.isReference .standard text = true
        ↔ ∃ ref, ColumnType.ofLeaf .standard text = .reference ref)
      ∧ (Expression.isReference .standard text = true →
        ColumnType.parse .standard text = ColumnType.ofLeaf .standard text)
      ∧ (∀ ref ∈ (ColumnType.parse .standard text).references, Grammar.Followable ref)
      ∧ ∀ (loader : Loader) (answers : ChangingSource) (trail : List Link)
          (ancestors : List Text) (uri : NamespaceUri), loader.scheme = .standard →
        (∀ issue : Issue,
          issue.OccursIn (loader.schemaFrom answers trail ancestors uri).issues →
          ∀ key address reason,
            issue ≠ (Cause.invalidReference (.column key) address reason).issue)
        ∧ loader.schemaFrom (fun _ => loader.source) trail ancestors uri
          = (loader.load ancestors uri).schema := by
  refine ⟨⟨?_, ?_⟩, ?_, ?_, ?_⟩
  · exact fun isRef => (Grammar.parse_eq_ofLeaf_of_isReference isRef).1
  · exact fun ⟨ref, isRead⟩ => Grammar.isReference_of_ofLeaf isRead
  · exact fun isRef => (Grammar.parse_eq_ofLeaf_of_isReference isRef).2
  · intro ref member
    exact Grammar.followable_of_isStub
      (ColumnType.isStub_of_mem_references_parse .standard text ref member)
  · intro loader answers trail ancestors uri standard
    refine ⟨?_, loader.schemaFrom_const trail ancestors uri⟩
    intro issue occurs
    exact (SparesColumns.of_occursIn (fun outer => sparesColumns_of_mem_issues standard)
      occurs).ne_invalidReference

end Loader

end Typesheet
