import Typesheet.Issue.Basic

/-!
Contract: texts inside the comments of a declaration file.

Owns: making a text fit for a block comment, and the comment lines of an issue
tree.
-/

set_option autoImplicit false

namespace Typesheet.Declaration

/-- Part every `*/` with a space, from the left. -/
def partCommentEnds : Text → Text
  | '*' :: '/' :: rest => '*' :: ' ' :: '/' :: partCommentEnds rest
  | character :: rest => character :: partCommentEnds rest
  | [] => []

def commentText (text : Text) : Text :=
  Text.onOneLine (partCommentEnds text)

/-- The line of one issue, indented by its level. -/
def issueLine (pad : Text) (level : Nat) (kind : IssueKind) (message : Text) : Text :=
  pad ++ "// error: ".toList ++ List.replicate (2 * level) ' ' ++ "[".toList ++ kind.code
    ++ "] ".toList ++ Text.onOneLine message

mutual

/-- The lines of an issue tree, a parent before its children. -/
def issueLines (pad : Text) (level : Nat) : Issue → List Text
  | ⟨kind, message, children⟩ =>
      issueLine pad level kind message :: childLines pad (level + 1) children
termination_by structural issue => issue

def childLines (pad : Text) (level : Nat) : List Issue → List Text
  | [] => []
  | issue :: rest => issueLines pad level issue ++ childLines pad level rest
termination_by structural issues => issues

end

end Typesheet.Declaration
