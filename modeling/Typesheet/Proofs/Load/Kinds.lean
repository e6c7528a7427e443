import Typesheet.Proofs.Load.Deep

/-!
Contract: the kinds of the issues of a load.

Owns: the issues that stand in a forest at any depth, the issues that a reference can
leave, and the theorem that says of each kind where a load records it and where it does
not.

A link tells that its namespace is not defined from any other failure by the shape of the
issues that it meets there: one issue, of the kind for this case.  That shape stands for
nothing else because no reference ever leaves an issue of that kind, which is what
`Issue.FromReference` keeps through all levels of a load.
-/

set_option autoImplicit false

namespace Typesheet

namespace Issue

/-- The issue is one of some issues, or stands below one of them at any depth. -/
inductive OccursIn (issue : Issue) : List Issue → Prop where
  | here {issues : List Issue} (member : issue ∈ issues) : OccursIn issue issues
  | inside {issues : List Issue} {outer : Issue} (member : outer ∈ issues)
      (occurs : OccursIn issue outer.children) : OccursIn issue issues

/-- The issues that a reference can leave.  Only a failed reference keeps others below it,
and these are again such issues. -/
inductive FromReference : Issue → Prop where
  | definition (message : Text) : FromReference (.leaf .definition message)
  | namespaceNotFound (message : Text) : FromReference (.leaf .namespaceNotFound message)
  | circular (message : Text) : FromReference (.leaf .circularReference message)
  | reference (message : Text) {children : List Issue}
      (inner : ∀ child ∈ children, FromReference child) :
      FromReference ⟨.reference, message, children⟩

variable {issue : Issue} {issues more : List Issue}

theorem OccursIn.mono (occurs : issue.OccursIn issues) (subset : issues ⊆ more) :
    issue.OccursIn more := by
  cases occurs with
  | here member => exact .here (subset member)
  | inside member occurs => exact .inside (subset member) occurs

theorem occursIn_singleton_leaf_iff {kind : IssueKind} {message : Text} :
    issue.OccursIn [.leaf kind message] ↔ issue = .leaf kind message := by
  constructor
  · intro occurs
    cases occurs with
    | here member => exact List.mem_singleton.mp member
    | inside member occurs =>
        rw [List.mem_singleton.mp member] at occurs
        cases occurs with
        | here inner => exact absurd inner List.not_mem_nil
        | inside inner => exact absurd inner List.not_mem_nil
  · rintro rfl
    exact .here (List.mem_singleton_self _)

namespace FromReference

theorem of_mem_children {child : Issue} (left : issue.FromReference)
    (member : child ∈ issue.children) : child.FromReference := by
  cases left with
  | reference _ inner => exact inner child member
  | _ => exact absurd member List.not_mem_nil

/-- What holds of the outermost issues holds at any depth. -/
theorem of_occursIn (left : ∀ outer ∈ issues, outer.FromReference)
    (occurs : issue.OccursIn issues) : issue.FromReference := by
  induction occurs with
  | here member => exact left issue member
  | inside member _ inductionHypothesis =>
      apply inductionHypothesis
      intro child inner
      exact (left _ member).of_mem_children inner

theorem kind_ne_invalidNamespace (left : issue.FromReference) :
    issue.kind ≠ .invalidNamespace := by
  cases left <;> exact IssueKind.noConfusion

theorem kind_ne_definitionNotFound (left : issue.FromReference) :
    issue.kind ≠ .definitionNotFound := by
  cases left <;> exact IssueKind.noConfusion

theorem children_eq_nil (left : issue.FromReference) (kind : issue.kind ≠ .reference) :
    issue.children = [] := by
  cases left with
  | reference => exact absurd rfl kind
  | _ => rfl

end FromReference

end Issue

namespace Loader

/-- The source answers for a namespace, and it is not defined. -/
def LacksDefinition (loader : Loader) (uri : NamespaceUri) : Prop :=
  ∃ listing registration, loader.source.definition uri = .ok (listing, registration)
    ∧ registration.isDefined = false

/-- A load follows a link of a namespace into another. -/
structure Follows (loader : Loader) (answers : ChangingSource) (trail : List Link)
    (ancestors : List Text) (uri : NamespaceUri) (link : Link) (owner : NamespaceUri) :
    Prop where
  defined : (loader.facing answers trail).defines uri = true
  listed : link ∈ (loader.facing answers trail).links uri
  leads : ∃ selector, link.destination loader.scheme = .ok (owner, selector)
  fresh : owner.text ∉ ancestors ++ [uri.text]
  deeper : (ancestors ++ [uri.text]).length < loader.maxDepth

variable {loader : Loader} {answers : ChangingSource} {trail : List Link}
  {ancestors chain : List Text} {uri owner : NamespaceUri} {link : Link}
  {selector : Option Text} {issue : Issue}

/-! ## The issues of one link -/

theorem childIssue_of_fromReference {site : Site} {address : Text} {issues : List Issue}
    (left : ∀ issue ∈ issues, issue.FromReference) :
    childIssue site address issues = (Cause.referenceFailed site address issues).issue := by
  unfold childIssue
  split
  case h_1 =>
    exact absurd rfl (left _ (List.mem_singleton_self _)).kind_ne_definitionNotFound
  case h_2 => rfl

/-- A namespace leaves the issue of not being defined, or issues that references can
leave. -/
def Classified (issues : List Issue) : Prop :=
  (∃ address, issues = [(Cause.definitionNotFound address).issue])
    ∨ ∀ issue ∈ issues, issue.FromReference

theorem fromReference_of_settle {site : Site} {address : Text} {child : Schema}
    (classified : Classified child.issues)
    (failed : (settle site address owner selector child).issue? = some issue) :
    issue.FromReference := by
  unfold settle at failed
  split at failed
  case isTrue =>
    rw [← Option.some.inj failed]
    -- The issue of not being defined is replaced here, so it never stands below another.
    rcases classified with ⟨missing, only⟩ | left
    · rw [only]
      exact .namespaceNotFound _
    · rw [childIssue_of_fromReference left]
      exact .reference _ left
  case isFalse =>
    split at failed
    case h_1 => exact absurd failed (by simp [Resolution.issue?])
    case h_2 =>
      split at failed
      case isTrue => exact absurd failed (by simp [Resolution.issue?])
      case isFalse =>
        rw [← Option.some.inj failed]
        exact .reference _ fun _ member => absurd member List.not_mem_nil

theorem fromReference_of_resolveTo
    {child : chain.length < loader.maxDepth → NamespaceUri → Schema}
    (classified : ∀ deeper owner, Classified (child deeper owner).issues)
    (failed : (loader.resolveTo chain link child).issue? = some issue) :
    issue.FromReference := by
  cases loader.link_cases chain link with
  | unreadable refused =>
      rw [resolveTo_of_unreadable refused] at failed
      rw [← Option.some.inj failed]
      exact .definition _
  | circular leads visited =>
      rw [resolveTo_of_circular leads visited] at failed
      rw [← Option.some.inj failed]
      exact .circular _
  | tooDeep leads fresh atLimit =>
      rw [resolveTo_of_tooDeep leads fresh atLimit] at failed
      rw [← Option.some.inj failed]
      exact .reference _ fun _ member => absurd member List.not_mem_nil
  | enters leads fresh deeper =>
      rw [resolveTo_of_enters leads fresh deeper] at failed
      exact fromReference_of_settle (classified deeper _) failed

/-! ## The issues of one level -/

section Level

variable {resolution : Link → Resolution}

theorem fromReference_of_columnIssue {key : Text} {failures : List Issue}
    (left : ∀ failure ∈ failures, failure.FromReference)
    (recorded : columnIssue key failures = some issue) : issue.FromReference := by
  unfold columnIssue at recorded
  split at recorded
  case h_1 => exact absurd recorded (by simp)
  case h_2 only =>
    rw [← Option.some.inj recorded]
    exact left only (List.mem_singleton_self only)
  case h_3 =>
    rw [← Option.some.inj recorded]
    exact .reference _ left

theorem fromReference_of_mem_levelIssues
    (left : ∀ link issue, (resolution link).issue? = some issue → issue.FromReference)
    (member : issue ∈ loader.levelIssues resolution uri) : issue.FromReference := by
  rcases List.mem_append.mp member with inBase | inColumns
  · obtain ⟨link, _, failed⟩ := List.mem_filterMap.mp inBase
    exact left link issue failed
  · obtain ⟨field, _, recorded⟩ := List.mem_filterMap.mp inColumns
    apply fromReference_of_columnIssue ?_ recorded
    intro failure inField
    obtain ⟨link, _, failed⟩ := List.mem_filterMap.mp inField
    exact left link failure failed

theorem occursIn_columnIssue {key : Text} {failures : List Issue} (member : issue ∈ failures) :
    issue.OccursIn (columnIssue key failures).toList := by
  rcases failures with _ | ⟨first, _ | ⟨second, rest⟩⟩
  · exact absurd member List.not_mem_nil
  · exact .here member
  · exact .inside (List.mem_singleton_self _) (.here member)

/-- No failed link is left out of the issues of its namespace. -/
theorem occursIn_levelIssues (listed : link ∈ loader.links uri)
    (failed : (resolution link).issue? = some issue) :
    issue.OccursIn (loader.levelIssues resolution uri) := by
  unfold links at listed
  unfold levelIssues
  rcases List.mem_append.mp listed with inBase | inColumns
  · exact .here (List.mem_append_left _ (List.mem_filterMap.mpr ⟨link, inBase, failed⟩))
  · obtain ⟨field, declared, linked⟩ := List.mem_flatMap.mp inColumns
    have inField : issue ∈ columnFailures resolution field :=
      List.mem_filterMap.mpr ⟨link, linked, failed⟩
    apply (occursIn_columnIssue inField).mono
    intro recorded member
    apply List.mem_append_right
    exact List.mem_filterMap.mpr ⟨field, declared, Option.mem_toList.mp member⟩

end Level

/-! ## The issues of a load -/

theorem schemaFrom_of_unanswered {reason : Text}
    (refused : (answers trail).definition uri = .error reason) :
    loader.schemaFrom answers trail ancestors uri
      = { uri := uri.text, issues := [(Cause.loadFailed uri.text reason).issue] } := by
  rw [schemaFrom_eq]
  exact assemble_of_unanswered refused _

theorem schemaFrom_of_lacksDefinition
    (lacks : (loader.facing answers trail).LacksDefinition uri) :
    loader.schemaFrom answers trail ancestors uri
      = { uri := uri.text, issues := [(Cause.definitionNotFound uri.text).issue] } := by
  obtain ⟨listing, registration, answered, notDefined⟩ := lacks
  rw [schemaFrom_eq]
  exact assemble_of_undefined answered notDefined _

/-- A namespace that does not lack its definition leaves issues that references can leave. -/
theorem fromReference_of_mem_issues
    (notLacking : ¬ (loader.facing answers trail).LacksDefinition uri)
    (member : issue ∈ (loader.schemaFrom answers trail ancestors uri).issues) :
    issue.FromReference := by
  induction ancestors, uri using loader.load_induction generalizing trail issue with
  | level ancestors uri inductionHypothesis =>
      rcases definition_cases (loader.facing answers trail) uri with
        ⟨reason, refused⟩ | undefined | defined
      · rw [schemaFrom_of_unanswered refused, List.mem_singleton] at member
        rw [member]
        exact .definition _
      · exact absurd undefined notLacking
      · rw [schemaFrom_eq, (assemble_of_defines _ defined).2.2] at member
        apply fromReference_of_mem_levelIssues ?_ member
        intro link issue failed
        apply fromReference_of_resolveTo ?_ failed
        intro deeper owner
        by_cases lacks : (loader.facing answers (trail ++ [link])).LacksDefinition owner
        · rw [schemaFrom_of_lacksDefinition lacks]
          exact .inl ⟨owner.text, rfl⟩
        · exact .inr fun _ inner => inductionHypothesis deeper owner lacks inner

theorem occursIn_issues_cases
    (occurs : issue.OccursIn (loader.schemaFrom answers trail ancestors uri).issues) :
    ((loader.facing answers trail).LacksDefinition uri
        ∧ issue = (Cause.definitionNotFound uri.text).issue)
      ∨ (¬ (loader.facing answers trail).LacksDefinition uri ∧ issue.FromReference) := by
  by_cases lacks : (loader.facing answers trail).LacksDefinition uri
  · rw [schemaFrom_of_lacksDefinition lacks] at occurs
    exact .inl ⟨lacks, Issue.occursIn_singleton_leaf_iff.mp occurs⟩
  · exact .inr ⟨lacks, .of_occursIn (fun _ => fromReference_of_mem_issues lacks) occurs⟩

/-- The issue of a followed link whose namespace did not load. -/
theorem exists_issue_of_follows
    (follows : loader.Follows answers trail ancestors uri link owner)
    (failed : (loader.schemaFrom answers (trail ++ [link]) (ancestors ++ [uri.text])
      owner).isOk = false) :
    let child := loader.schemaFrom answers (trail ++ [link]) (ancestors ++ [uri.text]) owner
    ∃ issue, loader.resolutionFrom answers trail ancestors uri link = .failed issue
      ∧ issue.OccursIn (loader.schemaFrom answers trail ancestors uri).issues
      ∧ (issue.kind = .namespaceNotFound
        ↔ (loader.facing answers (trail ++ [link])).LacksDefinition owner)
      ∧ (issue.kind ≠ .namespaceNotFound →
        issue.kind = .reference ∧ issue.children = child.issues ∧ child.issues ≠ []) := by
  intro child
  obtain ⟨selector, leads⟩ := follows.leads
  have settled : loader.resolutionFrom answers trail ancestors uri link
      = .failed (childIssue link.site link.ref.uri child.issues) := by
    unfold resolutionFrom
    rw [resolveTo_of_enters leads follows.fresh follows.deeper]
    exact if_pos failed
  refine ⟨_, settled, ?_, ?_⟩
  · rw [schemaFrom_eq, (assemble_of_defines _ follows.defined).2.2]
    apply occursIn_levelIssues follows.listed
    rw [settled]
    rfl
  · have hasIssues : child.issues ≠ [] := by
      intro none
      rw [Schema.isOk, List.isEmpty_eq_false_iff] at failed
      exact failed none
    by_cases lacks : (loader.facing answers (trail ++ [link])).LacksDefinition owner
    · have only : child.issues = [(Cause.definitionNotFound owner.text).issue] :=
        congrArg Schema.issues (schemaFrom_of_lacksDefinition lacks)
      rw [only]
      exact ⟨⟨fun _ => lacks, fun _ => rfl⟩, fun other => absurd rfl other⟩
    · rw [childIssue_of_fromReference fun _ => fromReference_of_mem_issues lacks]
      refine ⟨⟨fun kind => absurd kind IssueKind.noConfusion, fun kind => absurd kind lacks⟩,
        fun _ => ⟨rfl, rfl, hasIssues⟩⟩

/-- **Each kind of issue has its place.**  Whatever the store answers from visit to visit, the
issues of a load at any depth are of these kinds.  None says that an address is invalid.  One
says that a definition was not found exactly when the namespace is answered for and not
defined, and then it is the only one.  All but failed references have no issues below them.
A followed link whose namespace did not load leaves, among these issues, one that says that
the namespace was not found exactly when that namespace is answered for and not defined,
and otherwise a failed reference with exactly the issues of that namespace, of which there
are some.  Of a namespace that has no answer or is not defined there is nothing else in the
schema. -/
theorem kinds_of_issues (loader : Loader) (answers : ChangingSource) (trail : List Link)
    (ancestors : List Text) (uri : NamespaceUri) :
    let schema := loader.schemaFrom answers trail ancestors uri
    let visited := loader.facing answers trail
    (∀ issue : Issue, issue.OccursIn schema.issues → issue.kind ≠ .invalidNamespace)
      ∧ (∀ issue : Issue, issue.OccursIn schema.issues → issue.kind = .definitionNotFound →
        schema.issues = [issue])
      ∧ ((∃ issue : Issue, issue.OccursIn schema.issues ∧ issue.kind = .definitionNotFound)
        ↔ visited.LacksDefinition uri)
      ∧ (∀ issue : Issue, issue.OccursIn schema.issues → issue.kind ≠ .reference →
        issue.children = [])
      ∧ (∀ link owner, loader.Follows answers trail ancestors uri link owner →
        let child := loader.schemaFrom answers (trail ++ [link]) (ancestors ++ [uri.text]) owner
        child.isOk = false →
        ∃ issue, loader.resolutionFrom answers trail ancestors uri link = .failed issue
          ∧ issue.OccursIn schema.issues
          ∧ (issue.kind = .namespaceNotFound
            ↔ (loader.facing answers (trail ++ [link])).LacksDefinition owner)
          ∧ (issue.kind ≠ .namespaceNotFound →
            issue.kind = .reference ∧ issue.children = child.issues ∧ child.issues ≠ []))
      ∧ (∀ reason, (answers trail).definition uri = .error reason →
        schema = { uri := uri.text, issues := [(Cause.loadFailed uri.text reason).issue] })
      ∧ (visited.LacksDefinition uri →
        schema = { uri := uri.text, issues := [(Cause.definitionNotFound uri.text).issue] })
      ∧ ∀ source before,
        (Client.load { loader with source } ⟨some uri, before⟩).1.schema
          = loader.schemaFrom (fun _ => source) [] [] uri := by
  intro schema visited
  refine ⟨?_, ?_, ⟨?_, ?_⟩, ?_, ?_, ?_, ?_, ?_⟩
  · intro issue occurs
    rcases occursIn_issues_cases occurs with ⟨_, rfl⟩ | ⟨_, left⟩
    · exact IssueKind.noConfusion
    · exact left.kind_ne_invalidNamespace
  · intro issue occurs kind
    rcases occursIn_issues_cases occurs with ⟨lacks, rfl⟩ | ⟨_, left⟩
    · exact congrArg Schema.issues (schemaFrom_of_lacksDefinition lacks)
    · exact absurd kind left.kind_ne_definitionNotFound
  · rintro ⟨issue, occurs, kind⟩
    rcases occursIn_issues_cases occurs with ⟨lacks, _⟩ | ⟨_, left⟩
    · exact lacks
    · exact absurd kind left.kind_ne_definitionNotFound
  · intro lacks
    have only : schema.issues = [(Cause.definitionNotFound uri.text).issue] :=
      congrArg Schema.issues (schemaFrom_of_lacksDefinition lacks)
    rw [only]
    exact ⟨_, .here (List.mem_singleton_self _), rfl⟩
  · intro issue occurs kind
    rcases occursIn_issues_cases occurs with ⟨_, rfl⟩ | ⟨_, left⟩
    · rfl
    · exact left.children_eq_nil kind
  · intro link owner follows
    exact exists_issue_of_follows follows
  · intro reason
    exact schemaFrom_of_unanswered
  · exact schemaFrom_of_lacksDefinition
  · exact fun source before => loader.schema_client_load source uri before

end Loader

end Typesheet
