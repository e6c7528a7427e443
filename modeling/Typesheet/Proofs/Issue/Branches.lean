import Typesheet.Issue.Basic

/-!
Contract: issue trees as lists of branches.

Owns: the nodes of an issue tree, and its branches.  A branch runs from the outermost
node to a node without children, so the branches of a forest, read depth first, are
its childless nodes with all that encloses them.
-/

set_option autoImplicit false

namespace Typesheet.Issue

abbrev Node := IssueKind × Text

/-- The outermost node of an issue. -/
def node (issue : Issue) : Node :=
  (issue.kind, issue.message)

mutual

/-- The branches of an issue, outermost node first, in depth-first order. -/
def branches : Issue → List (List Node)
  | ⟨kind, message, children⟩ =>
      if children = [] then [[(kind, message)]]
      else (branchesAll children).map fun branch => (kind, message) :: branch
termination_by structural issue => issue

def branchesAll : List Issue → List (List Node)
  | [] => []
  | issue :: rest => branches issue ++ branchesAll rest
termination_by structural issues => issues

end

theorem branches_of_children_eq_nil {issue : Issue} (childless : issue.children = []) :
    issue.branches = [[issue.node]] := by
  obtain ⟨kind, message, children⟩ := issue
  rw [branches, if_pos childless]
  rfl

theorem branches_of_children_ne_nil {issue : Issue} (hasChildren : issue.children ≠ []) :
    issue.branches = (branchesAll issue.children).map fun branch => issue.node :: branch := by
  obtain ⟨kind, message, children⟩ := issue
  rw [branches, if_neg hasChildren]
  rfl

theorem branchesAll_eq_flatMap : ∀ issues : List Issue,
    branchesAll issues = issues.flatMap branches
  | [] => rfl
  | issue :: rest => by
      rw [branchesAll, branchesAll_eq_flatMap rest, List.flatMap_cons]

theorem branchesAll_append (left right : List Issue) :
    branchesAll (left ++ right) = branchesAll left ++ branchesAll right := by
  rw [branchesAll_eq_flatMap, branchesAll_eq_flatMap, branchesAll_eq_flatMap,
    List.flatMap_append]

theorem branchesAll_singleton (issue : Issue) : branchesAll [issue] = issue.branches := by
  rw [branchesAll_eq_flatMap, List.flatMap_singleton]

/-- The branches of the issues that some entries leave are those of each entry. -/
theorem branchesAll_filterMap {Entry : Type} (leaves : Entry → Option Issue)
    (entries : List Entry) :
    branchesAll (entries.filterMap leaves)
      = entries.flatMap fun entry => branchesAll (leaves entry).toList := by
  induction entries with
  | nil => rfl
  | cons entry rest inductionHypothesis =>
      rw [List.flatMap_cons, ← inductionHypothesis]
      cases left : leaves entry with
      | none => rw [List.filterMap_cons_none left]; rfl
      | some issue =>
          rw [List.filterMap_cons_some left, Option.toList_some, branchesAll_singleton,
            branchesAll]

mutual

theorem branches_ne_nil : ∀ issue : Issue, issue.branches ≠ []
  | ⟨kind, message, children⟩ => by
      rw [branches]
      split
      case isTrue => exact List.cons_ne_nil _ _
      case isFalse hasChildren =>
        intro none
        exact hasChildren ((branchesAll_eq_nil_iff children).mp (List.map_eq_nil_iff.mp none))

theorem branchesAll_eq_nil_iff : ∀ issues : List Issue, branchesAll issues = [] ↔ issues = []
  | [] => by simp [branchesAll]
  | issue :: rest => by simp [branchesAll, branches_ne_nil issue]

end

end Typesheet.Issue
