import Typesheet.Issue.Json
import Typesheet.Proofs.Json.Record

/-!
Contract: issues are read back.

Owns: the documents of issues are documents of texts, and an issue tree of any shape is read
back by every reader that allows the levels that its document opens, whether it is read
straight from a document or from one that was kept first.
-/

set_option autoImplicit false

namespace Typesheet

open Json (GivesBack Textual)

theorem IssueKind.ofJson?_toJson (origin : Json.Origin) (kind : IssueKind) :
    IssueKind.ofJson? origin kind.toJson = some kind := by
  cases kind <;> rfl

namespace Issue

theorem listToJson_eq_map (issues : List Issue) : listToJson issues = issues.map toJson := by
  induction issues with
  | nil => rfl
  | cons issue rest inductionHypothesis =>
      rw [listToJson, inductionHypothesis, List.map_cons]

/-- The fields of the document of an issue. -/
def fields (issue : Issue) : List (String × Option Json) :=
  [("message", some (.ofText issue.message)), ("kind", some issue.kind.toJson),
    ("children", Json.nonEmpty toJson issue.children)]

theorem toJson_eq_present (issue : Issue) : issue.toJson = .record (Json.present issue.fields) := by
  obtain ⟨kind, message, children⟩ := issue
  rw [toJson, listToJson_eq_map]
  cases children <;> rfl

@[simp] theorem depth_toJson_kind (kind : IssueKind) : kind.toJson.depth = 0 :=
  rfl

theorem givesBack_of_children {origin : Json.Origin} {levels : Nat} {issue : Issue}
    (children : GivesBack (listOfJson? origin levels) (fun issues => .array (issues.map toJson))
      levels issue.children) :
    GivesBack (ofJson? origin (levels + 1)) toJson (levels + 1) issue := by
  have taken : (Json.record (Json.present issue.fields)).fields? ["message", "kind", "children"]
      = some (issue.fields.map Prod.snd) := Json.fields?_present rfl (by decide)
  have fits : issue.toJson.depth ≤ levels + 1
      ↔ Json.Fits levels (Json.nonEmpty toJson issue.children) := by
    rw [toJson_eq_present, Json.depth_present_le_iff]
    simp [fields]
  apply GivesBack.of_iff fits
  rw [toJson_eq_present, ofJson?, taken]
  simp only [fields, List.map_cons, List.map_nil, Option.bind_eq_bind, Option.bind_some,
    Json.required, IssueKind.ofJson?_toJson, Json.text?_ofText, Json.withDefault_nonEmpty children,
    Json.bind_if_some]
  obtain ⟨kind, message, children⟩ := issue
  rfl

theorem givesBack_levels (origin : Json.Origin) (levels : Nat) :
    (∀ issue, GivesBack (ofJson? origin levels) toJson levels issue)
      ∧ ∀ issues, GivesBack (listOfJson? origin levels)
          (fun issues => .array (issues.map toJson)) levels issues := by
  induction levels with
  | zero =>
      constructor
      · intro issue
        exact Json.givesBack_zero_of_record issue.toJson_eq_present
      · intro issues
        exact Json.givesBack_zero (Nat.succ_pos _)
  | succ levels inductionHypothesis =>
      obtain ⟨each, all⟩ := inductionHypothesis
      exact ⟨fun issue => givesBack_of_children (all issue.children),
        fun issues => Json.list?_map fun issue _ => each issue⟩

/-- **An issue tree is read back** by every reader that allows the levels that its document
opens, and by no other. -/
theorem givesBack (origin : Json.Origin) (levels : Nat) (issue : Issue) :
    GivesBack (ofJson? origin levels) toJson levels issue :=
  (givesBack_levels origin levels).1 issue

theorem givesBack_list (origin : Json.Origin) (levels : Nat) (issues : List Issue) :
    GivesBack (listOfJson? origin levels) (fun issues => .array (issues.map toJson)) levels
      issues :=
  (givesBack_levels origin levels).2 issues

mutual

theorem textual_toJson : ∀ issue : Issue, Textual issue.toJson
  | ⟨kind, message, children⟩ => by
      have each := textual_of_mem children
      rw [toJson_eq_present]
      apply Json.textual_present
      cases children with
      | nil => simp [fields, Json.nonEmpty, IssueKind.toJson, Json.IsTextual]
      | cons first rest =>
          have all : Textual (.array ((first :: rest).map toJson)) :=
            .array (List.forall_mem_map.mpr each)
          simpa [fields, Json.nonEmpty, IssueKind.toJson] using all

theorem textual_of_mem : ∀ issues : List Issue, ∀ issue ∈ issues, Textual issue.toJson
  | [] => List.forall_mem_nil _
  | issue :: rest => List.forall_mem_cons.mpr ⟨textual_toJson issue, textual_of_mem rest⟩

end

end Issue

end Typesheet
