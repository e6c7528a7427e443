import Mathlib.Data.List.Chain
import Typesheet.Proofs.ColumnType.Nodes
import Typesheet.Proofs.Declaration.Selection
import Typesheet.Proofs.Declaration.TypeText
import Typesheet.Proofs.Text.Line

/-!
Contract: the block comments of a document end at the ends that are written for them.

Owns: texts without a comment end, a reader of block comments, what parting the ends of a text
leaves of it, where the comments of unknown types and of targets stand in a document, and the
theorem that each of them holds its content in.

A comment end is two characters side by side, so whether a text has one is told by its neighbours
alone, and of two texts put together only the seam is new.  Parting puts a space between a star and
a slash and leaves the first character of a text as it is, so no star comes to stand in front of a
slash that was not there before.
-/

set_option autoImplicit false

namespace Typesheet.Declaration

variable {text other mark : Text}

/-! ## Comment ends -/

/-- No star stands in front of a slash. -/
def KeepsOpen (text : Text) : Prop :=
  text.IsChain fun left right => ¬ (left = '*' ∧ right = '/')

instance (text : Text) : Decidable (KeepsOpen text) :=
  inferInstanceAs (Decidable (List.IsChain _ text))

namespace KeepsOpen

theorem noEnd (keepsOpen : KeepsOpen text) : ¬ "*/".toList <:+: text := by
  intro within
  have parted := List.IsChain.infix keepsOpen within
  exact List.isChain_pair.mp parted ⟨rfl, rfl⟩

theorem cons {first : Char} (noStar : first ≠ '*') (keepsOpen : KeepsOpen text) :
    KeepsOpen (first :: text) :=
  List.isChain_cons.mpr ⟨fun _ _ ends => noStar ends.1, keepsOpen⟩

/-- A space parts what stands in front of it from what stands behind it. -/
theorem append_space (left : KeepsOpen text) (right : KeepsOpen other) :
    KeepsOpen (text ++ ' ' :: other) := by
  refine List.isChain_append.mpr ⟨left, right.cons (by decide), ?_⟩
  rintro last - next isNext ⟨-, isSlash⟩
  obtain rfl : ' ' = next := Option.some.inj isNext
  exact absurd isSlash (by decide)

theorem onOneLine (keepsOpen : KeepsOpen text) : KeepsOpen (Text.onOneLine text) := by
  have original : ∀ {character sign : Char}, sign ≠ ' ' →
      (if character = '\n' then ' ' else character) = sign → character = sign := by
    intro character sign noSpace shown
    split at shown
    case isTrue => exact absurd shown.symm noSpace
    case isFalse => exact shown
  refine (List.isChain_map _).mpr (keepsOpen.imp fun left right parted ends => parted ?_)
  exact ⟨original (by decide) ends.1, original (by decide) ends.2⟩

end KeepsOpen

theorem head?_partCommentEnds (text : Text) : (partCommentEnds text).head? = text.head? := by
  unfold partCommentEnds
  split <;> rfl

/-- **Parting leaves no comment end.** -/
theorem keepsOpen_partCommentEnds (text : Text) : KeepsOpen (partCommentEnds text) := by
  fun_induction partCommentEnds text with
  | case1 rest inductionHypothesis =>
      have star : KeepsOpen ['*'] := by decide
      exact star.append_space (inductionHypothesis.cons (by decide))
  | case2 character rest noEnd inductionHypothesis =>
      refine List.isChain_cons.mpr ⟨?_, inductionHypothesis⟩
      rintro next isNext ⟨rfl, rfl⟩
      rw [head?_partCommentEnds] at isNext
      obtain ⟨behind, rfl⟩ := List.head?_eq_some_iff.mp isNext
      exact noEnd behind rfl rfl
  | case3 => exact .nil

theorem keepsOpen_commentText (text : Text) : KeepsOpen (commentText text) :=
  (keepsOpen_partCommentEnds text).onOneLine

/-- Ends are parted from the left, and what is left of a run is no end. -/
example : commentText "**//*/*/\n/".toList = "** //* /* / /".toList := by decide

/-! ## Reading block comments -/

/-- Read a block comment from behind the two characters that open it: what stands behind the first
comment end. -/
def behindComment? : Text → Option Text
  | [] => none
  | '*' :: '/' :: rest => some rest
  | _ :: rest => behindComment? rest

/-- Up to the star of its end the text of a comment may hold no end; then it is read up to that
end. -/
theorem behindComment?_append (keepsOpen : KeepsOpen (text ++ ['*'])) (behind : Text) :
    behindComment? (text ++ "*/".toList ++ behind) = some behind := by
  induction text with
  | nil => rfl
  | cons first rest inductionHypothesis =>
      obtain ⟨parted, later⟩ := List.isChain_cons.mp keepsOpen
      have sameHead : (rest ++ "*/".toList ++ behind).head? = (rest ++ ['*']).head? := by
        cases rest <;> rfl
      have noEndHere : ∀ tail, first = '*' → rest ++ "*/".toList ++ behind ≠ '/' :: tail := by
        intro tail isStar whole
        rw [whole] at sameHead
        exact parted '/' sameHead.symm ⟨isStar, rfl⟩
      rw [List.cons_append, List.cons_append, behindComment?.eq_3 _ _ noEndHere]
      exact inductionHypothesis later

/-- A block comment: its mark, what it says, and its end. -/
def blockComment (mark content : Text) : Text :=
  mark ++ ' ' :: (content ++ " */".toList)

/-- A block comment holds its content in: no end and no line feed stands in the content, the whole
comment less its last character has no end either, and whatever follows the comment in a document,
a reader that has passed its opening comes out right behind it. -/
structure HoldsIn (mark content : Text) : Prop where
  noEnd : ¬ "*/".toList <:+: content
  oneLine : '\n' ∉ content
  noEarlyEnd : ¬ "*/".toList <:+: (blockComment mark content).dropLast
  readBack : ∀ behind,
    behindComment? ((blockComment mark content ++ behind).drop "/*".toList.length) = some behind

theorem holdsIn_commentText (opens : "/*".toList <+: mark) (keepsOpen : KeepsOpen mark)
    (text : Text) : HoldsIn mark (commentText text) := by
  have content := keepsOpen_commentText text
  have star : KeepsOpen ['*'] := by decide
  have inside : KeepsOpen (mark ++ ' ' :: (commentText text ++ " *".toList)) :=
    keepsOpen.append_space (content.append_space star)
  have front : blockComment mark (commentText text)
      = mark ++ ' ' :: (commentText text ++ " *".toList) ++ ['/'] := by
    simp [blockComment]
  refine ⟨content.noEnd, Text.newline_notMem_onOneLine _, ?_, ?_⟩
  · rw [front, List.dropLast_concat]
    exact inside.noEnd
  · intro behind
    obtain ⟨rest, rfl⟩ := opens
    have regroup : (blockComment ("/*".toList ++ rest) (commentText text) ++ behind).drop
          "/*".toList.length
        = rest ++ ' ' :: (commentText text ++ [' ']) ++ "*/".toList ++ behind := by
      simp [blockComment]
    rw [regroup]
    apply behindComment?_append
    have behindMark : rest ++ ' ' :: (commentText text ++ [' ']) ++ ['*']
        <:+ "/*".toList ++ rest ++ ' ' :: (commentText text ++ " *".toList) :=
      ⟨"/*".toList, by simp⟩
    exact List.IsChain.infix inside behindMark.isInfix

/-! ## Where block comments stand -/

/-- The text of a type holds the text of each of its nodes. -/
theorem typeText_infix_of_isNode (nameOf : Ref → Text) {node type : ColumnType}
    (isNode : ColumnType.IsNode node type) : typeText nameOf node <:+: typeText nameOf type := by
  induction isNode with
  | self => exact List.infix_refl _
  | @member name members isArray member isMember _ inductionHypothesis =>
      have listed : typeText nameOf member ∈ memberTexts nameOf members := by
        rw [Grammar.memberTexts_eq_map]
        exact List.mem_map_of_mem isMember
      exact inductionHypothesis.trans (memberText_infix_typeText nameOf listed name isArray)

theorem typeText_unknown (nameOf : Ref → Text) (nonempty : text ≠ []) (isArray : Bool) :
    typeText nameOf (.unknown text isArray)
      = withArrayMark "unknown".toList isArray
        ++ ' ' :: blockComment "/*".toList (commentText text) := by
  rw [typeText, unknownText, if_neg nonempty]
  simp [blockComment]

/-- The line that tells the target of a column. -/
def targetLine (pad target : Text) : Text :=
  pad ++ blockComment "/** @target".toList (commentText target)

theorem targetLine_mem_columnLines (nameOf : Ref → Text) (pad : Text) {column : Field}
    {target : Text} (isTarget : column.target = some target) :
    targetLine pad target ∈ columnLines nameOf pad column := by
  have written : targetLine pad target
      = pad ++ "/** @target ".toList ++ commentText target ++ " */".toList := by
    simp [targetLine, blockComment]
  rw [columnLines, isTarget, written]
  exact List.mem_append_left _ (List.mem_append_right _ (List.mem_singleton_self _))

theorem interfaceText_infix_renderWithBase (options : RenderOptions) {uri typename : Text}
    {implements : Option ColumnType} {columns : List Field} {interface : Interface}
    (member : interface ∈ interfacesOf uri typename implements columns) :
    interfaceText (referenceName (interfacesOf uri typename implements columns))
        (List.replicate options.indent ' ') interface
      <:+: renderWithBase options uri typename implements columns :=
  (infix_intercalate_of_mem "\n".toList (List.mem_map_of_mem member)).trans
    (List.suffix_append _ _).isInfix

/-- **Block comments end at their own ends.**  Whatever text an unknown type was read from and
whatever target a column has, the comment that is written for it holds it in.  An unknown type at
any depth in the unions of a type is written with its comment behind it, and a column with a target
has its comment on a line of its own above it; both stand in every document, with issues or
without, that has the column in one of its interfaces. -/
theorem block_comments_end_at_their_ends :
    (∀ text, HoldsIn "/*".toList (commentText text)
        ∧ HoldsIn "/** @target".toList (commentText text))
      ∧ (∀ nameOf type text isArray, ColumnType.IsNode (.unknown text isArray) type → text ≠ [] →
        withArrayMark "unknown".toList isArray ++ ' ' :: blockComment "/*".toList (commentText text)
          <:+: typeText nameOf type)
      ∧ ∀ options uri typename implements columns,
        let interfaces := interfacesOf uri typename implements columns
        let document := renderWithBase options uri typename implements columns
        ∀ interface ∈ interfaces, ∀ column ∈ interface.columns,
          typeText (referenceName interfaces) column.type <:+: document
            ∧ ∀ target, column.target = some target →
              targetLine (List.replicate options.indent ' ') target ++ ['\n'] <:+: document := by
  refine ⟨?_, ?_, ?_⟩
  · intro text
    exact ⟨holdsIn_commentText (by decide) (by decide) text,
      holdsIn_commentText (by decide) (by decide) text⟩
  · intro nameOf type text isArray isNode nonempty
    rw [← typeText_unknown nameOf nonempty]
    exact typeText_infix_of_isNode nameOf isNode
  · intro options uri typename implements columns interfaces document interface member column
      inColumns
    have inDocument := interfaceText_infix_renderWithBase options member
    constructor
    · have onLine := (propertyLine_infix_interfaceText inColumns).trans inDocument
      have inLine := (List.prefix_append _ ['\n']).isInfix.trans onLine
      exact typeText_infix_propertyLine.trans inLine
    · intro target isTarget
      have isLine := targetLine_mem_columnLines (referenceName interfaces)
        (List.replicate options.indent ' ') isTarget
      exact (line_infix_interfaceText inColumns isLine).trans inDocument

/-- A column with runs of comment ends in its target and in the text of an unknown type. -/
private def looseColumn : Field :=
  { key := "A".toList, name := "raw".toList
    type := .union [] [.keyword .string false, .unknown "**//".toList true] false
    target := some "*/*/\nx".toList }

theorem runs_of_comment_ends_stay_inside :
    let interfaces := interfacesOf "ns:loose".toList "Loose".toList none [looseColumn]
    let document := render { includeHeader := false, indent := 2 } "ns:loose".toList
      "Loose".toList [looseColumn]
    document = ("export interface Loose \x7b\n  /** @target * /* / x */\n"
        ++ "  raw: (string | unknown[] /* ** // */);\n\x7d\n").toList
      ∧ (∃ interface ∈ interfaces, looseColumn ∈ interface.columns)
      ∧ looseColumn.target = some "*/*/\nx".toList
      ∧ targetLine "  ".toList "*/*/\nx".toList ++ ['\n'] <:+: document
      ∧ ColumnType.IsNode (.unknown "**//".toList true) looseColumn.type
      ∧ "unknown[] /* ** // */".toList <:+: typeText (referenceName interfaces) looseColumn.type
      ∧ HoldsIn "/*".toList "** //".toList
      ∧ HoldsIn "/** @target".toList "* /* / x".toList := by
  intro interfaces document
  obtain ⟨holds, nodes, places⟩ := block_comments_end_at_their_ends
  have member : (⟨"Loose".toList, "Loose".toList, none, [looseColumn]⟩ : Interface) ∈ interfaces :=
    List.mem_singleton_self _
  have inColumns : looseColumn ∈ [looseColumn] := List.mem_singleton_self _
  have isNode : ColumnType.IsNode (.unknown "**//".toList true) looseColumn.type :=
    .member (by decide) .self
  have inDocument := places { includeHeader := false, indent := 2 } _ _ none _ _ member
    looseColumn inColumns
  exact ⟨by decide +kernel, ⟨_, member, inColumns⟩, rfl, inDocument.2 _ rfl, isNode,
    nodes _ _ _ _ isNode (by decide), (holds "**//".toList).1, (holds "*/*/\nx".toList).2⟩

end Typesheet.Declaration
