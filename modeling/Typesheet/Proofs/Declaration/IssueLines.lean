import Mathlib.Data.List.Basic
import Typesheet.Declaration.Render
import Typesheet.Proofs.Issue.Branches
import Typesheet.Proofs.Text.Line
import Typesheet.Schema.Client
import Typesheet.Source.Memory

/-!
Contract: the issues of a column stand in comments above it.

Owns: the nodes of an issue tree with their depths, the lines that a tree is written on, and the
theorem that these are one for each node, each with a comment to its end but for the line ends
that a message brings along.

A message may quote what a store answered, so nothing is known of its characters.  Of the line
ends in it only the line feeds are replaced: each node has one line to whoever counts line feeds,
but its comment ends at the first of the other line ends, and what is behind that is code.
-/

set_option autoImplicit false

namespace Typesheet

namespace Issue

mutual

/-- The nodes of an issue tree, depth first and each with its depth. -/
def nodes : Issue → List (Nat × Node)
  | ⟨kind, message, children⟩ =>
      (0, kind, message) :: (nodesAll children).map fun entry => (entry.1 + 1, entry.2)
termination_by structural issue => issue

def nodesAll : List Issue → List (Nat × Node)
  | [] => []
  | issue :: rest => nodes issue ++ nodesAll rest
termination_by structural issues => issues

end

end Issue

namespace Declaration

/-- The line of a node of an issue tree. -/
def nodeLine (pad : Text) (entry : Nat × Issue.Node) : Text :=
  issueLine pad entry.1 entry.2.1 entry.2.2

/-! ## One line for each node -/

mutual

theorem issueLines_eq_map (pad : Text) : ∀ (issue : Issue) (level : Nat),
    issueLines pad level issue
      = issue.nodes.map fun entry => nodeLine pad (level + entry.1, entry.2)
  | ⟨kind, message, children⟩, level => by
      rw [issueLines, Issue.nodes, List.map_cons, List.map_map, childLines_eq_map pad children]
      congr 1
      apply List.map_congr_left
      intro entry _
      show nodeLine pad (level + 1 + entry.1, entry.2) = nodeLine pad (level + (entry.1 + 1), entry.2)
      rw [Nat.add_assoc, Nat.add_comm 1]

theorem childLines_eq_map (pad : Text) : ∀ (issues : List Issue) (level : Nat),
    childLines pad level issues
      = (Issue.nodesAll issues).map fun entry => nodeLine pad (level + entry.1, entry.2)
  | [], _ => rfl
  | issue :: rest, level => by
      rw [childLines, Issue.nodesAll, List.map_append, issueLines_eq_map pad issue,
        childLines_eq_map pad rest]

end

theorem issueLines_zero (pad : Text) (issue : Issue) :
    issueLines pad 0 issue = issue.nodes.map (nodeLine pad) := by
  rw [issueLines_eq_map]
  apply List.map_congr_left
  intro entry _
  rw [Nat.zero_add]

/-- What the line of a node has in front of its message. -/
def nodeOpening (pad : Text) (entry : Nat × Issue.Node) : Text :=
  pad ++ "// error: ".toList ++ List.replicate (2 * entry.1) ' ' ++ "[".toList
    ++ entry.2.1.code ++ "] ".toList

theorem nodeLine_eq (pad : Text) (entry : Nat × Issue.Node) :
    nodeLine pad entry = nodeOpening pad entry ++ Text.onOneLine entry.2.2 :=
  rfl

theorem marker_prefix_nodeLine (pad : Text) (entry : Nat × Issue.Node) :
    pad ++ "// error: ".toList <+: nodeLine pad entry := by
  unfold nodeLine issueLine
  simp only [List.append_assoc, List.prefix_append_right_inj]
  exact List.prefix_append _ _

section Contained

variable {pad : Text}

theorem isLine_spaces (count : Nat) : Text.IsLine (List.replicate count ' ') := by
  intro character member
  rw [List.eq_of_mem_replicate member]
  decide

theorem isLine_code (kind : IssueKind) : Text.IsLine kind.code := by
  cases kind <;> decide

theorem isLine_nodeOpening (isLine : Text.IsLine pad) (entry : Nat × Issue.Node) :
    Text.IsLine (nodeOpening pad entry) := by
  have marker : Text.IsLine "// error: ".toList := by decide
  have opening : Text.IsLine "[".toList := by decide
  have closing : Text.IsLine "] ".toList := by decide
  simp only [nodeOpening, Text.isLine_append]
  exact ⟨⟨⟨⟨⟨isLine, marker⟩, isLine_spaces _⟩, opening⟩, isLine_code _⟩, closing⟩

/-- A comment takes the line of a node in up to the first line end of its message. -/
theorem afterLine_nodeLine (isLine : Text.IsLine pad) (entry : Nat × Issue.Node) :
    Text.afterLine (nodeLine pad entry) = Text.afterLine (Text.onOneLine entry.2.2) := by
  rw [nodeLine_eq, Text.afterLine_append_of_isLine (isLine_nodeOpening isLine entry)]

theorem newline_notMem_nodeLine (isLine : Text.IsLine pad) (entry : Nat × Issue.Node) :
    '\n' ∉ nodeLine pad entry := by
  rw [nodeLine_eq, List.mem_append, not_or]
  exact ⟨(isLine_nodeOpening isLine entry).newline_notMem, Text.newline_notMem_onOneLine _⟩

end Contained

/-! ## Lines in the text -/

theorem lines_eq_intercalate (texts : List Text) :
    lines texts = ['\n'].intercalate (texts ++ [[]]) := by
  induction texts with
  | nil => rfl
  | cons text rest inductionHypothesis =>
      obtain ⟨next, others, behind⟩ : ∃ next others, rest ++ [[]] = next :: others :=
        List.exists_cons_of_ne_nil (by simp)
      rw [List.cons_append, behind, List.intercalate_cons_cons, ← behind, ← inductionHypothesis]
      rfl

/-- Lines without line feeds are read back from the text that they make. -/
theorem splitOn_lines {texts : List Text} (single : ∀ text ∈ texts, '\n' ∉ text) :
    (lines texts).splitOn '\n' = texts ++ [[]] := by
  rw [lines_eq_intercalate]
  apply List.splitOn_intercalate
  · intro text member
    rcases List.mem_append.mp member with listed | isLast
    · exact single text listed
    · rw [List.mem_singleton.mp isLast]
      exact List.not_mem_nil
  · simp

theorem lines_infix {inner outer : List Text} (within : inner <:+: outer) :
    lines inner <:+: lines outer := by
  obtain ⟨front, back, rfl⟩ := within
  exact ⟨lines front, lines back, by simp [lines]⟩

/-- The lines of a column stand together in the text of its interface. -/
theorem columnLines_infix_interfaceText (nameOf : Ref → Text) (pad : Text)
    {interface : Interface} {column : Field} (member : column ∈ interface.columns) :
    lines (columnLines nameOf pad column) <:+: interfaceText nameOf pad interface := by
  have hasColumns : interface.columns ≠ [] := List.ne_nil_of_mem member
  have inBody : columnLines nameOf pad column
      <:+: interface.columns.flatMap (columnLines nameOf pad) :=
    List.infix_of_mem_flatten (List.mem_map_of_mem member)
  unfold interfaceText
  rw [if_neg hasColumns]
  exact lines_infix (inBody.trans ⟨_, _, rfl⟩)

/-- **Where the comments of issues end.**  A tree of issues is written on one line for each of its
nodes, depth first, so far as lines end at line feeds, and every line opens with the pad and the
mark of a comment.  The comment takes the line in up to the first other line end in the message
of the node, and what follows is code: so all lines are comments to their ends, and none holds a
line end, exactly when line feeds are the only line ends in the messages.  The lines of a column
start with those of its issue, and stand together in the text of every interface that has it. -/
theorem comments_end_at_line_ends (indent : Nat) (issue : Issue) :
    let pad := List.replicate indent ' '
    let written := issueLines pad 0 issue
    written = issue.nodes.map (nodeLine pad)
      ∧ (lines written).splitOn '\n' = written ++ [[]]
      ∧ (∀ line ∈ written, pad ++ "// error: ".toList <+: line)
      ∧ (∀ entry ∈ issue.nodes,
          Text.afterLine (nodeLine pad entry) = Text.afterLine (Text.onOneLine entry.2.2))
      ∧ ((∀ line ∈ written, Text.IsLine line)
          ↔ ∀ entry ∈ issue.nodes, ∀ character ∈ entry.2.2,
            Text.isLineEnd character = true → character = '\n')
      ∧ ∀ nameOf interface column, column ∈ interface.columns → column.issue = some issue →
          written <+: columnLines nameOf pad column
            ∧ lines (columnLines nameOf pad column) <:+: interfaceText nameOf pad interface := by
  intro pad written
  have padLine : Text.IsLine pad := isLine_spaces indent
  have each : written = issue.nodes.map (nodeLine pad) := issueLines_zero pad issue
  refine ⟨each, ?_, ?_, fun entry _ => afterLine_nodeLine padLine entry, ?_, ?_⟩
  · apply splitOn_lines
    rw [each, List.forall_mem_map]
    exact fun entry _ => newline_notMem_nodeLine padLine entry
  · rw [each, List.forall_mem_map]
    exact fun entry _ => marker_prefix_nodeLine pad entry
  · rw [each, List.forall_mem_map]
    refine forall₂_congr fun entry _ => ?_
    rw [← Text.isLine_onOneLine_iff, ← Text.afterLine_eq_nil_iff, ← Text.afterLine_eq_nil_iff,
      afterLine_nodeLine padLine]
  · intro nameOf interface column member recorded
    refine ⟨?_, columnLines_infix_interfaceText nameOf pad member⟩
    rw [columnLines, recorded, List.append_assoc]
    simp only [Option.toList_some, childLines, List.append_nil]
    exact List.prefix_append _ _

/-- The issue that a store leaves which answers with a message of two lines. -/
private def retriedIssue : Issue :=
  ⟨.reference, "Column `A` references `ns:contacts`".toList,
    [.leaf .definition "timed out\nretried twice".toList]⟩

private def retriedColumn : Field :=
  { key := "A".toList, name := "buyer".toList, type := .keyword .string false
    issue := some retriedIssue }

theorem retried_issue_stays_in_comments :
    let interface : Interface :=
      { name := "Orders".toList, typename := "Orders".toList, columns := [retriedColumn] }
    let written := issueLines "  ".toList 0 retriedIssue
    retriedColumn ∈ interface.columns ∧ retriedColumn.issue = some retriedIssue
      ∧ (∀ line ∈ written, Text.IsLine line)
      ∧ written <+: columnLines Reference.typename "  ".toList retriedColumn
      ∧ written
        = ["  // error: [REF] Column `A` references `ns:contacts`".toList,
          "  // error:   [DEF] timed out retried twice".toList] := by
  intro interface written
  obtain ⟨-, -, -, -, oneLine, above⟩ := comments_end_at_line_ends 2 retriedIssue
  have member : retriedColumn ∈ interface.columns := List.mem_singleton_self _
  have feedsOnly : ∀ entry ∈ retriedIssue.nodes, ∀ character ∈ entry.2.2,
      Text.isLineEnd character = true → character = '\n' := by
    have all : retriedIssue.nodes.all (fun entry => entry.2.2.all fun character =>
        !Text.isLineEnd character || character = '\n') = true := by decide
    simpa only [List.all_eq_true, Bool.or_eq_true, Bool.not_eq_true', decide_eq_true_eq,
      ← Bool.not_eq_true, ← imp_iff_not_or] using all
  exact ⟨member, rfl, oneLine.mpr feedsOnly,
    (above Reference.typename interface retriedColumn member rfl).1, by decide⟩

/-- A namespace with a reference to one that the store fails to answer for. -/
private def ordersTimedOut : Loader where
  scheme := .standard
  source := (MemoryStore.source
    { definitions :=
        [("ns:orders".toList,
          (Definition.named []).withColumn "A".toList "buyer".toList "ns:contacts".toList)] }).scripted
      [("ns:contacts".toList,
        { listing := some (.failed (.transport "timed out\rdeclare const owner: string".toList)) })]
  maxDepth := 2

/-- The message of a store with a carriage return in it ends its comment there, and the rest of it
stands in the declaration file as code. -/
theorem message_leaves_comment :
    let schema := (ordersTimedOut.load [] ⟨"ns:orders".toList, by decide⟩).schema
    let written := schema.columns.flatMap fun column =>
      childLines "  ".toList 0 column.issue.toList
    written
        = ["  // error: [REF] Column `A` references `ns:contacts`, which failed to resolve".toList,
          "  // error:   [DEF] Failed while loading type for `ns:contacts`. ".toList
            ++ "Transport error: timed out\rdeclare const owner: string".toList]
      ∧ written.map Text.afterLine = [[], "\rdeclare const owner: string".toList]
      ∧ renderSchema { includeHeader := false, indent := 2 } schema
        = "export interface Orders \x7b\n".toList ++ lines written
          ++ "  buyer: 'ns:contacts' /* unresolved reference */;\n\x7d\n".toList := by
  decide +kernel

end Declaration

end Typesheet
