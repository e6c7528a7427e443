import Typesheet.Proofs.ColumnType.Choices
import Typesheet.Proofs.ColumnType.Stub
import Typesheet.Proofs.Expression.Gaps
import Typesheet.Proofs.Expression.Quoted

/-!
Contract: the nodes of the types that are read, from any text and under any scheme.

Owns: the types that reading can give, the nodes of a type, what holds of each kind of node, and
the theorem that a read type has such nodes only and does not change with the gaps of its text.

The readers build a type from the inside out: leaves, literals of a leaf, unions of what they have,
and the array of a group.  `Canonical` has a constructor for each of these, so each reader keeps
it, and the names of unions are looked at only once, in `Canonical.fits`.
-/

set_option autoImplicit false

namespace Typesheet.ColumnType

open Expression

/-! ## Types that reading can give -/

/-- The name of the array of a group with the given name. -/
def arrayName (name : Text) : Text :=
  '(' :: name ++ ")[]".toList

/-- The types that are put together as the readers put them together. -/
inductive Canonical : ColumnType → Prop where
  | keyword (word : Keyword) (isArray : Bool) : Canonical (.keyword word isArray)
  | literal (content : Text) (isArray : Bool) : Canonical (.literal (quoteLiteral content) isArray)
  | toNamespace (uri : Text) (isArray : Bool) :
      Canonical (.reference (.toNamespace uri isArray))
  | toColumn (uri selector : Text) (isArray : Bool) :
      Canonical (.reference (.toColumn uri selector isArray))
  | unknown (text : Text) (isArray : Bool) : Canonical (.unknown text isArray)
  | union (members : List ColumnType) (several : 2 ≤ members.length)
      (canonical : ∀ member ∈ members, Canonical member) :
      Canonical (.union (Grammar.joined members) members false)
  | array (name : Text) (members : List ColumnType) (isArray : Bool)
      (content : Canonical (.union name members isArray)) :
      Canonical (.union (arrayName name) members true)

/-- A node of a type: the type itself, or a node of a member of a union. -/
inductive IsNode (node : ColumnType) : ColumnType → Prop where
  | self : IsNode node node
  | member {name : Text} {members : List ColumnType} {isArray : Bool} {member : ColumnType}
      (isMember : member ∈ members) (inside : IsNode node member) :
      IsNode node (.union name members isArray)

/-- What holds of a node by its kind.  A literal has single quotes around it.  A reference is not
resolved, and its scope is that of a column exactly when it has a selector.  A union has members,
not fewer than two, and is named by joining what they show; as an array it has that name in
parentheses with a marker behind, once or several times over. -/
def Fits : ColumnType → Prop
  | .keyword .. => True
  | .literal text _ =>
      2 ≤ text.length ∧ text.head? = some '\'' ∧ text.getLast? = some '\''
  | .reference ref =>
      ref.typename = [] ∧ ref.columns = [] ∧ (ref.scope = .column ↔ ref.selector.isSome = true)
  | .union name members false => 2 ≤ members.length ∧ name = Grammar.joined members
  | .union name members true =>
      2 ≤ members.length ∧ ∃ times, name = arrayName^[times + 1] (Grammar.joined members)
  | .unknown .. => True

variable {scheme : Scheme} {type node : ColumnType} {types : List ColumnType} {text : Text}

namespace Canonical

theorem fits (canonical : Canonical type) : Fits type := by
  induction canonical with
  | keyword word isArray => trivial
  | literal content isArray =>
      refine ⟨?_, rfl, List.getLast?_concat⟩
      simp [quoteLiteral]
  | toNamespace uri isArray => exact ⟨rfl, rfl, by simp [Reference.toNamespace]⟩
  | toColumn uri selector isArray => exact ⟨rfl, rfl, by simp [Reference.toColumn]⟩
  | unknown text isArray => trivial
  | union members several canonical _ => exact ⟨several, rfl⟩
  | array name members isArray content inductionHypothesis =>
      cases isArray with
      | false =>
          have named := inductionHypothesis.2
          exact ⟨inductionHypothesis.1, 0, congrArg arrayName named⟩
      | true =>
          obtain ⟨several, times, named⟩ := inductionHypothesis
          refine ⟨several, times + 1, ?_⟩
          rw [Function.iterate_succ_apply', ← named]

/-- The nodes of a canonical type are canonical.  A union keeps its members when it is made an
array, so below an array of it stands what stands below the union. -/
theorem of_isNode (canonical : Canonical type) (isNode : IsNode node type) : Canonical node := by
  induction canonical with
  | keyword word isArray => cases isNode; exact .keyword word isArray
  | literal content isArray => cases isNode; exact .literal content isArray
  | toNamespace uri isArray => cases isNode; exact .toNamespace uri isArray
  | toColumn uri selector isArray => cases isNode; exact .toColumn uri selector isArray
  | unknown text isArray => cases isNode; exact .unknown text isArray
  | union members several canonical inductionHypothesis =>
      cases isNode with
      | self => exact .union members several canonical
      | member isMember inside => exact inductionHypothesis _ isMember inside
  | array name members isArray content inductionHypothesis =>
      cases isNode with
      | self => exact .array name members isArray content
      | member isMember inside => exact inductionHypothesis (.member isMember inside)

end Canonical

/-! ## Names -/

/-- The scan meets no separator on a quoted content: from the first character to the last it stays
inside the literal. -/
theorem passes_quoteLiteral (content : Text) :
    Passes ScanState.separates .start (quoteLiteral content)
      (ScanState.start.run (quoteLiteral content)) := by
  refine passes_iff.mpr ⟨rfl, fun before character after whole => ?_⟩
  cases before with
  | nil =>
      obtain ⟨isFirst, -⟩ := List.cons_eq_cons.mp whole
      rw [← isFirst]
      rfl
  | cons first others =>
      have inside := (opensLiteral_quoteLiteral content).staysInside _ _ whole
        (List.cons_ne_nil first others) (List.cons_ne_nil character after)
      rw [Bool.eq_false_iff]
      intro separates
      rw [(separates_iff.mp separates).1] at inside
      exact absurd inside Bool.false_ne_true

/-- **A quoted content is one token**, whether its literal is closed or not. -/
theorem texts_quoteLiteral (content : Text) :
    Token.texts (quoteLiteral content) = [quoteLiteral content] := by
  have sign : Text.Tight ['\''] := Text.tight_singleton rfl
  exact Token.texts_of_passes (sign.append (escapeContent false content) sign)
    (passes_quoteLiteral content)

theorem Canonical.memberName_eq (canonical : Canonical type) :
    memberName type = Grammar.shown type := by
  cases canonical with
  | keyword word isArray => exact Grammar.withArrayMark_eq_marked _ _
  | literal content isArray =>
      have single : ¬ 1 < (Token.texts (quoteLiteral content)).length := by
        rw [texts_quoteLiteral]
        exact Nat.lt_irrefl 1
      change name (.literal (quoteLiteral content) isArray) = _
      rw [name, decide_eq_false single, Bool.and_false, Grammar.withArrayMark_eq_marked]
      rfl
  | toNamespace uri isArray => exact Grammar.withArrayMark_eq_marked _ _
  | toColumn uri selector isArray => exact Grammar.withArrayMark_eq_marked _ _
  | unknown text isArray => exact Grammar.withArrayMark_eq_marked _ _
  | union members several canonical => rfl
  | array name members isArray content => rfl

/-! ## What the readers give -/

theorem canonical_ofMembers (canonical : ∀ type ∈ types, Canonical type) :
    Canonical (ofMembers types) := by
  cases types with
  | nil => exact .unknown [] false
  | cons first others =>
      cases others with
      | nil => exact canonical first (List.mem_singleton_self first)
      | cons second rest =>
          have named : unionName (first :: second :: rest)
              = Grammar.joined (first :: second :: rest) :=
            congrArg separator.intercalate
              (List.map_congr_left fun type member => (canonical type member).memberName_eq)
          have isUnion : ofMembers (first :: second :: rest)
              = .union (Grammar.joined (first :: second :: rest)) (first :: second :: rest)
                false := by
            rw [← named]
            rfl
          rw [isUnion]
          exact .union _ (Nat.le_add_left 2 rest.length) canonical

theorem canonical_arrayOfGroup (canonical : Canonical type) : Canonical (arrayOfGroup type) := by
  cases canonical with
  | keyword word isArray => exact .keyword word true
  | literal content isArray => exact .literal content true
  | toNamespace uri isArray => exact .toNamespace uri true
  | toColumn uri selector isArray => exact .toColumn uri selector true
  | unknown text isArray => exact .unknown text true
  | union members several canonical => exact .array _ _ _ (.union members several canonical)
  | array name members isArray content => exact .array _ _ _ (.array name members isArray content)

theorem canonical_ofLiteral (piece : Text) : Canonical (ofLiteral piece) := by
  rw [ofLiteral]
  split
  case isTrue => exact .literal _ true
  case isFalse => exact .literal _ false

theorem canonical_ofLiterals (nonempty : Text.trim text ≠ []) : Canonical (ofLiterals text) := by
  have hasToken : Token.texts text ≠ [] := by
    rw [Token.texts_eq, Token.listTrimmed_of_ne_nil nonempty]
    exact List.cons_ne_nil _ _
  rw [Grammar.ofLiterals_eq_ofMembers hasToken]
  exact canonical_ofMembers (List.forall_mem_map.mpr fun piece _ => canonical_ofLiteral piece)

theorem canonical_readStem {whole : Text} (nonempty : Text.trim whole ≠ []) (stem : Text)
    (isArray : Bool) : Canonical (Grammar.readStem scheme whole stem isArray) := by
  unfold Grammar.readStem
  split
  case h_1 word _ => exact .keyword word isArray
  case h_2 =>
    split
    case isTrue => exact .toNamespace stem isArray
    case isFalse =>
      split
      case h_1 column _ => exact .toColumn stem column.selector isArray
      case h_2 =>
        split
        case isTrue => exact canonical_ofLiterals nonempty
        case isFalse => exact .unknown stem isArray

theorem canonical_ofLeaf (scheme : Scheme) (text : Text) : Canonical (ofLeaf scheme text) := by
  rw [Grammar.ofLeaf_eq_readStem]
  by_cases nothing : Text.trim text = []
  · rw [if_pos nothing]
    exact .unknown [] false
  · rw [if_neg nothing]
    apply canonical_readStem
    rwa [Text.trim_trim]

/-- **Every text is read as a canonical type**, under every scheme. -/
theorem canonical_parse (scheme : Scheme) (text : Text) : Canonical (parse scheme text) := by
  induction size : text.length using Nat.strongRecOn generalizing text with
  | ind size inductionHypothesis =>
      subst size
      rw [parse_eq]
      apply canonical_ofMembers
      refine List.forall_mem_map.mpr fun token isTerm => ?_
      unfold ofToken
      cases shape : token.shape with
      | plain => exact canonical_ofLeaf scheme token.text
      | group inner =>
          have shorter := length_inner_lt_of_mem_termTokens isTerm (.inl shape)
          exact inductionHypothesis _ shorter inner rfl
      | groupArray inner =>
          have shorter := length_inner_lt_of_mem_termTokens isTerm (.inr shape)
          simp only
          split
          case isTrue => exact .unknown _ false
          case isFalse => exact canonical_arrayOfGroup (inductionHypothesis _ shorter inner rfl)

/-! ## What does not count -/

/-- **Reading depends on the segments only.** -/
theorem parse_eq_segments (scheme : Scheme) (text : Text) :
    parse scheme text = ofMembers ((segments text).map (readToken scheme)) := by
  rw [parse_eq_texts, filter_texts_eq_segments]

/-- **What is read from any text**, well formed or not, under any scheme.  Every node of the type
fits its kind: a union has two members or more and the name that joins them, in parentheses with
a marker behind once or more if it is an array; a reference is unresolved, with the scope of a
column exactly when it has a selector; a literal has its quotes.  And gaps do not count, that is,
blank terms and white space around the separators of the expression: in front of the text and
behind it a gap may be left out, and inside it one gap may stand for another, wherever the scan is
outside all groups and literals. -/
theorem nodes_fit_and_gaps_do_not_count (scheme : Scheme) (text : Text) :
    (∀ node, IsNode node (parse scheme text) → Fits node)
      ∧ (∀ gap, IsGap gap → parse scheme (gap ++ text) = parse scheme text)
      ∧ (∀ gap, IsGap gap → ScanState.start.run text = .start →
        parse scheme (text ++ gap) = parse scheme text)
      ∧ ∀ gap other after, IsSeparator gap → IsSeparator other →
        ScanState.start.run text = .start →
          parse scheme (text ++ gap ++ after) = parse scheme (text ++ other ++ after) := by
  refine ⟨?_, ?_, ?_, ?_⟩
  · intro node isNode
    exact ((canonical_parse scheme text).of_isNode isNode).fits
  · intro gap isGap
    rw [parse_eq_segments, parse_eq_segments, segments_gap_append isGap]
  · intro gap isGap outside
    rw [parse_eq_segments, parse_eq_segments, segments_append_gap outside isGap]
  · intro gap other after separator another outside
    rw [parse_eq_segments, parse_eq_segments, segments_append_separator outside separator,
      segments_append_separator outside another]

end Typesheet.ColumnType
