import Typesheet.Proofs.Load.Declared
import Typesheet.Proofs.Load.Failure
import Typesheet.Proofs.Load.Kinds

/-!
Contract: the issue forest of a load.

Owns: the failing points of a load listed in the order in which it meets them, and the
theorem that the branches of its issues are these points, one for one and in order.

`failingPoints` follows the recursion of a load, so that the issues can be compared with
it level by level.  `mem_failingPoints_iff` and `pairwise_failingPoints` then free the
result from it: the list holds the points at which a failure is met, and no others, and
is ordered by their keys.
-/

set_option autoImplicit false

namespace Typesheet.Loader

/-- The obstacle that a link meets below a chain, found by loading what it leads to. -/
def obstacle? (loader : Loader) (chain : List Text) (link : Link) : Option Obstacle :=
  match link.destination loader.scheme with
  | .error error => some (.unreadable error)
  | .ok (owner, selector) =>
      if owner.text ∈ chain then some .circular
      else if loader.maxDepth ≤ chain.length then some .tooDeep
      else
        selector.bind fun name =>
          if (loader.load chain owner).schema.isOk
              && !(loader.columnsOf owner).any (Reference.selects name) then
            some (.missingColumn owner name)
          else none

/-- The failing points along one link: the obstacle that it meets, or else the points
of the namespace that it leads to. -/
def failingPointsAlong (loader : Loader) (chain : List Text)
    (below : NamespaceUri → List FailingPoint) (entry : Link × Nat) : List FailingPoint :=
  match loader.obstacle? chain entry.1 with
  | some obstacle => [⟨[], .atLink entry.2 entry.1 obstacle⟩]
  | none =>
      match entry.1.destination loader.scheme with
      | .error _ => []
      | .ok (owner, _) => (below owner).map (FailingPoint.after ⟨entry.2, entry.1, owner⟩)

def failingPoints (loader : Loader) (ancestors : List Text) (uri : NamespaceUri) :
    List FailingPoint :=
  match loader.source.definition uri with
  | .error reason => [⟨[], .unanswered reason⟩]
  | .ok (_, registration) =>
      if registration.isDefined then
        (loader.links uri).zipIdx.flatMap <|
          loader.failingPointsAlong (ancestors ++ [uri.text]) fun owner =>
            if (ancestors ++ [uri.text]).length < loader.maxDepth then
              failingPoints loader (ancestors ++ [uri.text]) owner
            else []
      else [⟨[], .undefined⟩]
termination_by loader.maxDepth - ancestors.length
decreasing_by
  rename_i deeper
  rw [List.length_append, List.length_singleton] at deeper ⊢
  omega

/-- The failing points that a load below a chain goes on to. -/
def failingPointsBelow (loader : Loader) (chain : List Text) (owner : NamespaceUri) :
    List FailingPoint :=
  if chain.length < loader.maxDepth then loader.failingPoints chain owner else []

variable {loader : Loader} {ancestors chain : List Text} {uri owner : NamespaceUri}
  {link : Link} {selector : Option Text}

/-! ## Obstacles -/

theorem obstacle?_of_enters
    (leads : link.destination loader.scheme = .ok (owner, selector))
    (fresh : owner.text ∉ chain) (deeper : chain.length < loader.maxDepth) :
    loader.obstacle? chain link
      = selector.bind fun name =>
          if (loader.load chain owner).schema.isOk
              && !(loader.columnsOf owner).any (Reference.selects name) then
            some (.missingColumn owner name)
          else none := by
  unfold obstacle?
  rw [leads]
  simp only [fresh, Nat.not_le.mpr deeper, ↓reduceIte]

theorem obstacle?_eq_some_iff (allowed : loader.Allows chain) (notEmpty : chain ≠ [])
    {obstacle : Obstacle} :
    loader.obstacle? chain link = some obstacle ↔ loader.Obstructs chain link obstacle := by
  constructor
  · intro met
    cases loader.link_cases chain link with
    | unreadable refused =>
        simp only [obstacle?, refused, Option.some.injEq] at met
        subst met
        exact .unreadable refused
    | circular leads visited =>
        simp only [obstacle?, leads, visited, ↓reduceIte, Option.some.injEq] at met
        subst met
        exact .circular leads visited
    | tooDeep leads fresh atLimit =>
        simp only [obstacle?, leads, fresh, atLimit, ↓reduceIte, Option.some.injEq] at met
        subst met
        exact .tooDeep leads fresh atLimit
    | @enters owner selector leads fresh deeper =>
        have longer := (allows_append_singleton_iff notEmpty).mpr ⟨allowed, fresh, deeper⟩
        rw [obstacle?_of_enters leads fresh deeper] at met
        obtain ⟨name, rfl, found⟩ := Option.bind_eq_some_iff.mp met
        split at found
        case isFalse => exact absurd found (by simp)
        case isTrue missed =>
          rw [Bool.and_eq_true, isOk_load_iff_sound loader chain owner longer,
            Bool.not_eq_true', ← Bool.not_eq_true, any_selects_columnsOf_iff] at missed
          rw [← Option.some.inj found]
          exact .missingColumn leads fresh deeper missed.1 missed.2
  · intro obstructs
    cases obstructs with
    | unreadable refused => simp only [obstacle?, refused]
    | circular leads visited => simp only [obstacle?, leads, visited, ↓reduceIte]
    | tooDeep leads fresh atLimit => simp only [obstacle?, leads, fresh, atLimit, ↓reduceIte]
    | @missingColumn owner name leads fresh deeper sound missing =>
        have longer := (allows_append_singleton_iff notEmpty).mpr ⟨allowed, fresh, deeper⟩
        have isOk := (isOk_load_iff_sound loader chain owner longer).mpr sound
        rw [← any_selects_columnsOf_iff, Bool.not_eq_true] at missing
        rw [obstacle?_of_enters leads fresh deeper]
        simp only [Option.bind_some, isOk, missing, Bool.not_false, Bool.and_self, ↓reduceIte]

theorem enters_of_obstacle?_eq_none (free : loader.obstacle? chain link = none) :
    ∃ owner selector, link.destination loader.scheme = .ok (owner, selector)
      ∧ owner.text ∉ chain ∧ chain.length < loader.maxDepth := by
  cases loader.link_cases chain link with
  | unreadable refused => simp [obstacle?, refused] at free
  | circular leads visited => simp [obstacle?, leads, visited] at free
  | tooDeep leads fresh atLimit => simp [obstacle?, leads, fresh, atLimit] at free
  | enters leads fresh deeper => exact ⟨_, _, leads, fresh, deeper⟩

theorem resolution_followLink_of_obstructs (allowed : loader.Allows chain)
    (notEmpty : chain ≠ []) {obstacle : Obstacle}
    (obstructs : loader.Obstructs chain link obstacle) :
    (loader.followLink chain link).resolution
      = .failed (obstacle.cause loader.maxDepth chain link).issue := by
  cases obstructs with
  | unreadable refused =>
      rw [followLink_of_unreadable refused]
      rfl
  | circular leads visited =>
      rw [followLink_of_circular leads visited]
      rfl
  | tooDeep leads fresh atLimit =>
      rw [followLink_of_tooDeep leads fresh atLimit]
      rfl
  | @missingColumn owner name leads fresh deeper sound missing =>
      have longer := (allows_append_singleton_iff notEmpty).mpr ⟨allowed, fresh, deeper⟩
      have isOk := (isOk_load_iff_sound loader chain owner longer).mpr sound
      rw [← any_selects_columns_load_iff isOk, Bool.not_eq_true] at missing
      rw [followLink_of_enters leads fresh deeper]
      show settle link.site link.ref.uri owner (some name) _ = _
      simp only [settle, isOk, Bool.true_eq_false, ↓reduceIte, missing, Bool.false_eq_true]
      rfl

/-- A link without an obstacle only fails with the namespace that it leads to. -/
theorem issue?_followLink_of_obstacle?_eq_none
    (leads : link.destination loader.scheme = .ok (owner, selector))
    (fresh : owner.text ∉ chain) (deeper : chain.length < loader.maxDepth)
    (free : loader.obstacle? chain link = none) :
    (loader.followLink chain link).resolution.issue?
      = if (loader.load chain owner).schema.isOk then none
        else some (childIssue link.site link.ref.uri (loader.load chain owner).schema.issues) := by
  split
  case isTrue isOk =>
    rw [issue?_followLink_eq_none_iff]
    refine ⟨owner, selector, leads, fresh, deeper, isOk, ?_⟩
    rintro name rfl
    rw [obstacle?_of_enters leads fresh deeper] at free
    rw [← any_selects_columnsOf_iff]
    simpa [isOk] using free
  case isFalse failed =>
    rw [Bool.not_eq_true] at failed
    rw [followLink_of_enters leads fresh deeper]
    simp only [settle, failed, ↓reduceIte]
    rfl

/-! ## The failing points of a level -/

theorem failingPointsAlong_of_obstacle {below : NamespaceUri → List FailingPoint}
    {position : Nat} {obstacle : Obstacle}
    (met : loader.obstacle? chain link = some obstacle) :
    loader.failingPointsAlong chain below (link, position)
      = [⟨[], .atLink position link obstacle⟩] := by
  simp only [failingPointsAlong, met]

theorem failingPointsAlong_of_leads {below : NamespaceUri → List FailingPoint}
    {position : Nat} (free : loader.obstacle? chain link = none)
    (leads : link.destination loader.scheme = .ok (owner, selector)) :
    loader.failingPointsAlong chain below (link, position)
      = (below owner).map (FailingPoint.after ⟨position, link, owner⟩) := by
  simp only [failingPointsAlong, free, leads]

theorem failingPoints_of_unanswered {reason : Text}
    (refused : loader.source.definition uri = .error reason) :
    loader.failingPoints ancestors uri = [⟨[], .unanswered reason⟩] := by
  rw [failingPoints, refused]

theorem failingPoints_of_undefined {listing : Listing} {registration : Registration}
    (answered : loader.source.definition uri = .ok (listing, registration))
    (notDefined : registration.isDefined = false) :
    loader.failingPoints ancestors uri = [⟨[], .undefined⟩] := by
  rw [failingPoints, answered]
  simp only [notDefined, Bool.false_eq_true, ↓reduceIte]

theorem failingPoints_of_defines (defined : loader.defines uri = true) :
    loader.failingPoints ancestors uri
      = (loader.links uri).zipIdx.flatMap (loader.failingPointsAlong (ancestors ++ [uri.text])
          (loader.failingPointsBelow (ancestors ++ [uri.text]))) := by
  unfold defines at defined
  rw [failingPoints]
  split at defined
  case h_1 listing registration answered =>
    simp only [answered, defined, ↓reduceIte]
    rfl
  case h_2 => exact absurd defined (by simp)

/-! ## The branches of one level -/

/-- The issue of a column has a branch for each branch of its failures. -/
theorem branchesAll_columnIssue (key : Text) (failures : List Issue) :
    Issue.branchesAll (columnIssue key failures).toList
      = (Issue.branchesAll failures).map fun branch =>
          groupNode key failures.length ++ branch := by
  rcases failures with _ | ⟨first, _ | ⟨second, rest⟩⟩
  · rfl
  · simp [columnIssue, groupNode]
  · have several : columnIssue key (first :: second :: rest)
        = some (Cause.unresolvedReferences key (first :: second :: rest)).issue := rfl
    rw [several, Option.toList_some, Issue.branchesAll_singleton,
      Issue.branches_of_children_ne_nil (List.cons_ne_nil first (second :: rest))]
    simp [Cause.issue, groupNode, Issue.node]

/-- A column leaves as many issues as it has links that do not resolve. -/
theorem groupNodes_column (allowed : loader.Allows chain) (notEmpty : chain ≠ [])
    (field : Field) (ref : Ref) :
    loader.groupNodes chain (.column field ref)
      = groupNode field.key
          (columnFailures (fun link => (loader.followLink chain link).resolution) field).length := by
  unfold columnFailures
  rw [List.length_filterMap_eq_countP]
  apply congrArg (groupNode field.key)
  apply List.countP_congr
  intro link _
  simp only [decide_eq_true_eq]
  rw [← issue?_followLink_eq_none_iff_resolves allowed notEmpty, Option.isSome_iff_ne_none]

/-- The branches of a level are those that its links leave, each inside the node that
groups the failures of its column. -/
theorem branchesAll_levelIssues (allowed : loader.Allows chain) (notEmpty : chain ≠ []) :
    Issue.branchesAll
        (loader.levelIssues (fun link => (loader.followLink chain link).resolution) uri)
      = (loader.links uri).flatMap fun link =>
          (Issue.branchesAll (loader.followLink chain link).resolution.issue?.toList).map
            fun branch => loader.groupNodes chain link ++ branch := by
  unfold levelIssues links
  rw [Issue.branchesAll_append, List.flatMap_append, Issue.branchesAll_filterMap,
    Issue.branchesAll_filterMap, List.flatMap_assoc]
  congr 1
  · apply List.flatMap_congr
    intro link member
    unfold baseLinks at member
    split at member
    case isTrue => exact absurd member List.not_mem_nil
    case isFalse =>
      rw [List.mem_singleton.mp member]
      exact (List.map_id _).symm
  · apply List.flatMap_congr
    intro field _
    rw [branchesAll_columnIssue, columnFailures, Issue.branchesAll_filterMap,
      List.map_flatMap]
    apply List.flatMap_congr
    intro link member
    obtain ⟨ref, _, rfl⟩ := List.mem_map.mp member
    rw [groupNodes_column allowed notEmpty field ref]
    rfl

/-! ## The issue of a namespace that was not loaded -/

theorem fromReference_of_mem_issues_load
    (notUndefined : (∃ reason, loader.source.definition uri = .error reason)
      ∨ loader.defines uri = true)
    {issue : Issue} (member : issue ∈ (loader.load ancestors uri).schema.issues) :
    issue.FromReference := by
  have notLacking : ¬ loader.LacksDefinition uri := by
    rintro ⟨listing, registration, answered, notDefined⟩
    rcases notUndefined with ⟨reason, refused⟩ | defined
    · rw [answered] at refused
      exact absurd refused (by simp)
    · simp [defines, answered, notDefined] at defined
  rw [← schemaFrom_const loader [] ancestors uri] at member
  apply fromReference_of_mem_issues ?_ member
  exact notLacking

/-! ## The order of the failing points -/

theorem key_of_mem_failingPointsAlong {below : NamespaceUri → List FailingPoint}
    {entry : Link × Nat} {point : FailingPoint}
    (member : point ∈ loader.failingPointsAlong chain below entry) :
    ∃ rest, point.key = entry.2 :: rest := by
  cases met : loader.obstacle? chain entry.1 with
  | some obstacle =>
      rw [failingPointsAlong_of_obstacle met, List.mem_singleton] at member
      subst member
      exact ⟨[], rfl⟩
  | none =>
      obtain ⟨owner, selector, leads, _⟩ := enters_of_obstacle?_eq_none met
      rw [failingPointsAlong_of_leads met leads] at member
      obtain ⟨inner, _, rfl⟩ := List.mem_map.mp member
      exact ⟨inner.key, rfl⟩

theorem ne_undefined_of_mem_failingPoints
    (notUndefined : (∃ reason, loader.source.definition uri = .error reason)
      ∨ loader.defines uri = true)
    {point : FailingPoint} (member : point ∈ loader.failingPoints ancestors uri) :
    point ≠ ⟨[], .undefined⟩ := by
  rintro rfl
  rcases notUndefined with ⟨reason, refused⟩ | defined
  · rw [failingPoints_of_unanswered refused] at member
    exact absurd (List.mem_singleton.mp member) (by simp)
  · rw [failingPoints_of_defines defined] at member
    obtain ⟨entry, _, along⟩ := List.mem_flatMap.mp member
    obtain ⟨rest, same⟩ := key_of_mem_failingPointsAlong along
    exact absurd same (List.cons_ne_nil _ _).symm

theorem pairwise_failingPoints (loader : Loader) (ancestors : List Text)
    (uri : NamespaceUri) :
    (loader.failingPoints ancestors uri).Pairwise fun left right => left.key < right.key := by
  induction ancestors, uri using loader.load_induction with
  | level ancestors uri inductionHypothesis =>
      rcases loader.definition_cases uri with
        ⟨reason, refused⟩ | ⟨listing, registration, answered, notDefined⟩ | defined
      · rw [failingPoints_of_unanswered refused]
        exact List.pairwise_singleton _ _
      · rw [failingPoints_of_undefined answered notDefined]
        exact List.pairwise_singleton _ _
      · rw [failingPoints_of_defines defined]
        refine pairwise_flatMap_zipIdx FailingPoint.key _ _
          (fun entry _ point along => key_of_mem_failingPointsAlong along) ?_
        rintro ⟨link, position⟩ _
        cases met : loader.obstacle? (ancestors ++ [uri.text]) link with
        | some obstacle =>
            rw [failingPointsAlong_of_obstacle met]
            exact List.pairwise_singleton _ _
        | none =>
            obtain ⟨owner, selector, leads, _, deeper⟩ := enters_of_obstacle?_eq_none met
            rw [failingPointsAlong_of_leads met leads, failingPointsBelow, if_pos deeper,
              List.pairwise_map]
            refine (inductionHypothesis deeper owner).imp fun below => ?_
            exact List.cons_lt_cons_iff.mpr (.inr ⟨rfl, below⟩)

/-! ## The branches of one link -/

/-- Below a namespace that has no answer or is defined, no point is the namespace not
being defined. -/
theorem branch_after (hop : Hop) (point : FailingPoint)
    (notUndefined : point ≠ ⟨[], .undefined⟩) :
    loader.branch ancestors uri (point.after hop).route (point.after hop).failure
      = loader.groupNodes (ancestors ++ [uri.text]) hop.link
        ++ (Cause.referenceFailed hop.link.site hop.link.ref.uri []).issue.node
          :: loader.branch (ancestors ++ [uri.text]) hop.target point.route point.failure := by
  obtain ⟨route, failure⟩ := point
  show loader.branch ancestors uri (hop :: route) failure = _
  rw [branch]
  rintro rfl rfl
  exact notUndefined rfl

/-- A namespace that was not loaded gives the link that leads to it a branch for each
of its own. -/
private theorem branchesAll_childIssue (hop : Hop)
    (failed : (loader.load (ancestors ++ [uri.text]) hop.target).schema.isOk ≠ true)
    (inductionHypothesis :
      Issue.branchesAll (loader.load (ancestors ++ [uri.text]) hop.target).schema.issues
        = (loader.failingPoints (ancestors ++ [uri.text]) hop.target).map fun point =>
            loader.branch (ancestors ++ [uri.text]) hop.target point.route point.failure) :
    (childIssue hop.link.site hop.link.ref.uri
        (loader.load (ancestors ++ [uri.text]) hop.target).schema.issues).branches.map
        (fun branch => loader.groupNodes (ancestors ++ [uri.text]) hop.link ++ branch)
      = ((loader.failingPoints (ancestors ++ [uri.text]) hop.target).map
          (FailingPoint.after hop)).map
          fun point => loader.branch ancestors uri point.route point.failure := by
  have hasIssues :
      (loader.load (ancestors ++ [uri.text]) hop.target).schema.issues ≠ [] := by
    intro none
    apply failed
    rw [Schema.isOk, none]
    rfl
  have wrapped
      (notUndefined : (∃ reason, loader.source.definition hop.target = .error reason)
        ∨ loader.defines hop.target = true) :
      (childIssue hop.link.site hop.link.ref.uri
          (loader.load (ancestors ++ [uri.text]) hop.target).schema.issues).branches.map
          (fun branch => loader.groupNodes (ancestors ++ [uri.text]) hop.link ++ branch)
        = ((loader.failingPoints (ancestors ++ [uri.text]) hop.target).map
            (FailingPoint.after hop)).map
            fun point => loader.branch ancestors uri point.route point.failure := by
    rw [childIssue_of_fromReference fun _ => fromReference_of_mem_issues_load notUndefined,
      Issue.branches_of_children_ne_nil hasIssues]
    show (List.map _ (Issue.branchesAll _)).map _ = _
    rw [Cause.issue, inductionHypothesis, List.map_map, List.map_map, List.map_map]
    apply List.map_congr_left
    intro point member
    exact (branch_after hop point
      (ne_undefined_of_mem_failingPoints notUndefined member)).symm
  -- The issue of an undefined namespace is replaced by that of the link, not wrapped.
  rcases loader.definition_cases hop.target with
    ⟨reason, refused⟩ | ⟨listing, registration, answered, notDefined⟩ | defined
  · exact wrapped (.inl ⟨reason, refused⟩)
  · rw [issues_load_of_undefined answered notDefined,
      failingPoints_of_undefined answered notDefined]
    rfl
  · exact wrapped (.inr defined)

/-- What following a link leaves has a branch for each failing point along it. -/
private theorem branchesAll_followLink
    (allowed : loader.Allows (ancestors ++ [uri.text]))
    (children : (ancestors ++ [uri.text]).length < loader.maxDepth →
      ∀ owner : NamespaceUri, loader.Allows ((ancestors ++ [uri.text]) ++ [owner.text]) →
        Issue.branchesAll (loader.load (ancestors ++ [uri.text]) owner).schema.issues
          = (loader.failingPoints (ancestors ++ [uri.text]) owner).map fun point =>
              loader.branch (ancestors ++ [uri.text]) owner point.route point.failure)
    (link : Link) (position : Nat) :
    (Issue.branchesAll
        (loader.followLink (ancestors ++ [uri.text]) link).resolution.issue?.toList).map
        (fun branch => loader.groupNodes (ancestors ++ [uri.text]) link ++ branch)
      = (loader.failingPointsAlong (ancestors ++ [uri.text])
          (loader.failingPointsBelow (ancestors ++ [uri.text])) (link, position)).map
          fun point => loader.branch ancestors uri point.route point.failure := by
  have notEmpty : ancestors ++ [uri.text] ≠ [] := by simp
  cases met : loader.obstacle? (ancestors ++ [uri.text]) link with
  | some obstacle =>
      have obstructs := (obstacle?_eq_some_iff allowed notEmpty).mp met
      rw [failingPointsAlong_of_obstacle met,
        resolution_followLink_of_obstructs allowed notEmpty obstructs]
      show (Issue.branchesAll [_]).map _ = _
      rw [Issue.branchesAll_singleton,
        Issue.branches_of_children_eq_nil (by cases obstacle <;> rfl)]
      rfl
  | none =>
      obtain ⟨owner, selector, leads, fresh, deeper⟩ := enters_of_obstacle?_eq_none met
      have longer := (allows_append_singleton_iff notEmpty).mpr ⟨allowed, fresh, deeper⟩
      have below := children deeper owner longer
      rw [failingPointsAlong_of_leads met leads, failingPointsBelow, if_pos deeper,
        issue?_followLink_of_obstacle?_eq_none leads fresh deeper met]
      split
      case isTrue isOk =>
        -- A load without issues has no branches, so it has no failing points either.
        rw [Schema.isOk, List.isEmpty_iff] at isOk
        rw [isOk] at below
        rw [List.map_eq_nil_iff.mp below.symm]
        rfl
      case isFalse failed =>
        rw [Option.toList_some, Issue.branchesAll_singleton]
        exact branchesAll_childIssue ⟨position, link, owner⟩ failed below

/-- The branches of the issues of a load are its failing points, one for one and in
order. -/
theorem branchesAll_issues_load (loader : Loader) (ancestors : List Text)
    (uri : NamespaceUri) (allowed : loader.Allows (ancestors ++ [uri.text])) :
    Issue.branchesAll (loader.load ancestors uri).schema.issues
      = (loader.failingPoints ancestors uri).map fun point =>
          loader.branch ancestors uri point.route point.failure := by
  induction ancestors, uri using loader.load_induction with
  | level ancestors uri inductionHypothesis =>
      rcases loader.definition_cases uri with
        ⟨reason, refused⟩ | ⟨listing, registration, answered, notDefined⟩ | defined
      · rw [issues_load_of_unanswered refused, failingPoints_of_unanswered refused]
        rfl
      · rw [issues_load_of_undefined answered notDefined,
          failingPoints_of_undefined answered notDefined]
        rfl
      · rw [issues_load_of_defines defined, branchesAll_levelIssues allowed (by simp),
          failingPoints_of_defines defined, List.map_flatMap, flatMap_eq_flatMap_zipIdx]
        apply List.flatMap_congr
        rintro ⟨link, position⟩ _
        exact branchesAll_followLink allowed inductionHypothesis link position

/-! ## The points that are listed -/

private theorem mem_failingPointsAlong_iff (allowed : loader.Allows chain)
    (notEmpty : chain ≠ []) (link : Link) (position : Nat) (point : FailingPoint)
    (children : chain.length < loader.maxDepth → ∀ owner : NamespaceUri,
      loader.Allows (chain ++ [owner.text]) → ∀ inner,
        inner ∈ loader.failingPoints chain owner ↔ loader.FailsAt chain owner inner) :
    point ∈ loader.failingPointsAlong chain (loader.failingPointsBelow chain) (link, position)
      ↔ (∃ obstacle, loader.Obstructs chain link obstacle
          ∧ point = ⟨[], .atLink position link obstacle⟩)
        ∨ ∃ owner selector inner, link.destination loader.scheme = .ok (owner, selector)
          ∧ loader.FailsAt chain owner inner ∧ point = inner.after ⟨position, link, owner⟩ := by
  constructor
  · intro member
    cases met : loader.obstacle? chain link with
    | some obstacle =>
        rw [failingPointsAlong_of_obstacle met, List.mem_singleton] at member
        exact .inl ⟨obstacle, (obstacle?_eq_some_iff allowed notEmpty).mp met, member⟩
    | none =>
        obtain ⟨owner, selector, leads, fresh, deeper⟩ := enters_of_obstacle?_eq_none met
        have longer := (allows_append_singleton_iff notEmpty).mpr ⟨allowed, fresh, deeper⟩
        rw [failingPointsAlong_of_leads met leads, failingPointsBelow, if_pos deeper] at member
        obtain ⟨inner, listed, rfl⟩ := List.mem_map.mp member
        exact .inr ⟨owner, selector, inner, leads,
          (children deeper owner longer inner).mp listed, rfl⟩
  · rintro (⟨obstacle, obstructs, rfl⟩ | ⟨owner, selector, inner, leads, fails, rfl⟩)
    · rw [failingPointsAlong_of_obstacle ((obstacle?_eq_some_iff allowed notEmpty).mpr obstructs)]
      exact List.mem_singleton_self _
    · have longer := fails.enters.allows_start
      obtain ⟨_, fresh, deeper⟩ := (allows_append_singleton_iff notEmpty).mp longer
      have free : loader.obstacle? chain link = none := by
        rw [Option.eq_none_iff_forall_ne_some]
        intro obstacle met
        exact fails.not_obstructs notEmpty leads
          ((obstacle?_eq_some_iff allowed notEmpty).mp met)
      rw [failingPointsAlong_of_leads free leads, failingPointsBelow, if_pos deeper]
      exact List.mem_map_of_mem ((children deeper owner longer inner).mpr fails)

theorem mem_failingPoints_iff (allowed : loader.Allows (ancestors ++ [uri.text]))
    (point : FailingPoint) :
    point ∈ loader.failingPoints ancestors uri ↔ loader.FailsAt ancestors uri point := by
  induction ancestors, uri using loader.load_induction generalizing point with
  | level ancestors uri inductionHypothesis =>
      rcases loader.definition_cases uri with
        ⟨reason, refused⟩ | ⟨listing, registration, answered, notDefined⟩ | defined
      · rw [failingPoints_of_unanswered refused, List.mem_singleton,
          failsAt_iff_of_unanswered allowed refused]
      · rw [failingPoints_of_undefined answered notDefined, List.mem_singleton,
          failsAt_iff_of_undefined allowed answered notDefined]
      · have along (link : Link) (position : Nat) :=
          mem_failingPointsAlong_iff allowed (by simp) link position point
            fun deeper owner longer => inductionHypothesis deeper owner longer
        rw [failingPoints_of_defines defined, failsAt_iff_of_defines allowed defined,
          List.mem_flatMap]
        constructor
        · rintro ⟨⟨link, position⟩, member, listed⟩
          have found := List.mem_zipIdx_iff_getElem?.mp member
          rcases (along link position).mp listed with
            ⟨obstacle, obstructs, same⟩ | ⟨owner, selector, inner, leads, fails, same⟩
          · exact .inl ⟨position, link, obstacle, found, obstructs, same⟩
          · exact .inr ⟨⟨position, link, owner⟩, inner, ⟨found, selector, leads⟩, fails, same⟩
        · rintro (⟨position, link, obstacle, found, obstructs, same⟩
            | ⟨hop, inner, ⟨found, selector, leads⟩, fails, same⟩)
          · exact ⟨(link, position), List.mem_zipIdx_iff_getElem?.mpr found,
              (along link position).mpr (.inl ⟨obstacle, obstructs, same⟩)⟩
          · exact ⟨(hop.link, hop.position), List.mem_zipIdx_iff_getElem?.mpr found,
              (along hop.link hop.position).mpr
                (.inr ⟨hop.target, selector, inner, leads, fails, same⟩)⟩

/-- **No failure is lost, invented or reported twice.**  Whatever a client held
before, the branches of the issues of its load of a root, read depth first, are those
of the failing points that entered routes come to: one for each, in the order of the
links that lead there, and no others.  The links of a namespace are that of its
implements clause and then those of its columns, which are in the order of their
keys. -/
theorem branchesAll_issues_eq_map_branch (loader : Loader) (root : NamespaceUri)
    (before : Schema) :
    (∃ points : List FailingPoint,
        points.Pairwise (fun left right => left.key < right.key)
          ∧ (∀ point, point ∈ points ↔ loader.FailsAt [] root point)
          ∧ Issue.branchesAll (Client.load loader ⟨some root, before⟩).1.schema.issues
            = points.map fun point => loader.branch [] root point.route point.failure)
      ∧ ∀ uri, (loader.columnsOf uri).Pairwise fun left right =>
          (Column.compareKeys left.key right.key).isLE := by
  constructor
  · exact ⟨loader.failingPoints [] root, loader.pairwise_failingPoints [] root,
      fun point => mem_failingPoints_iff (allows_root root) point,
      branchesAll_issues_load loader [] root (allows_root root)⟩
  · exact loader.pairwise_columnsOf

end Typesheet.Loader
