import Typesheet.Text.Basic

/-!
Contract: the record of what went wrong while a schema was loaded.

Owns: the kinds of issues and their codes, the issue tree, its one-line form,
and decidable equality.  An issue met through a reference keeps the issues of
the referenced namespace as its children.
-/

set_option autoImplicit false

namespace Typesheet

inductive IssueKind where
  | invalidNamespace
  | definition
  | definitionNotFound
  | namespaceNotFound
  | reference
  | circularReference
deriving DecidableEq, Repr

namespace IssueKind

def all : List IssueKind :=
  [.invalidNamespace, .definition, .definitionNotFound, .namespaceNotFound, .reference,
    .circularReference]

/-- The code that stands for a kind in documents and messages. -/
def code : IssueKind → Text
  | .invalidNamespace => "NS".toList
  | .definition => "DEF".toList
  | .definitionNotFound => "DEF_NOT_FOUND".toList
  | .namespaceNotFound => "NS_NOT_FOUND".toList
  | .reference => "REF".toList
  | .circularReference => "CIRCULAR_REF".toList

def ofCode? (code : Text) : Option IssueKind :=
  all.find? fun kind => kind.code = code

end IssueKind

/-- An issue with the issues that led to it. -/
structure Issue where
  kind : IssueKind
  message : Text
  children : List Issue
deriving Repr

namespace Issue

mutual

def same : Issue → Issue → Bool
  | ⟨kind, message, children⟩, ⟨kind', message', children'⟩ =>
      kind = kind' && message = message' && sameAll children children'
termination_by structural issue => issue

/-- Node-by-node comparison of two lists of issue trees. -/
def sameAll : List Issue → List Issue → Bool
  | [], [] => true
  | issue :: rest, issue' :: rest' => same issue issue' && sameAll rest rest'
  | _, _ => false
termination_by structural issues => issues

end

mutual

theorem same_iff : (left right : Issue) → (same left right = true ↔ left = right)
  | ⟨_, _, children⟩, ⟨_, _, children'⟩ => by
      simp [same, sameAll_iff children children', and_assoc]

theorem sameAll_iff : (left right : List Issue) → (sameAll left right = true ↔ left = right)
  | [], [] => by simp [sameAll]
  | issue :: rest, issue' :: rest' => by
      simp [sameAll, same_iff issue issue', sameAll_iff rest rest']
  | [], _ :: _ => by simp [sameAll]
  | _ :: _, [] => by simp [sameAll]

end

instance : DecidableEq Issue := fun left right =>
  decidable_of_iff _ (same_iff left right)

def leaf (kind : IssueKind) (message : Text) : Issue :=
  ⟨kind, message, []⟩

/-- The remark on the number of children, when there are any. -/
def childCount (children : List Issue) : Text :=
  if children = [] then []
  else " (".toList ++ Text.ofNat children.length ++ " nested error(s))".toList

/-- The one-line form: code, message and number of children. -/
def display (issue : Issue) : Text :=
  "[".toList ++ issue.kind.code ++ "] ".toList ++ issue.message ++ childCount issue.children

mutual

def containsKind (kind : IssueKind) : Issue → Bool
  | ⟨own, _, children⟩ => own = kind || anyContainsKind kind children
termination_by structural issue => issue

/-- An issue of the given kind occurs in one of the trees. -/
def anyContainsKind (kind : IssueKind) : List Issue → Bool
  | [] => false
  | issue :: rest => containsKind kind issue || anyContainsKind kind rest
termination_by structural issues => issues

end

end Issue

end Typesheet
