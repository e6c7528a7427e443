import Typesheet.Proofs.ColumnType.Literals

/-!
Contract: white space in front of an array marker.

Owns: texts in parentheses as tokens, how far quoting keeps the characters of a text, what a group
is read as with white space between it and a marker, and the terms for which such white space makes
no difference.

The marker of a leaf is taken off first, and what is left is trimmed again.  A group is told by the
shape of its token, and only a marker directly behind the parenthesis belongs to that shape; with
white space between the two the token is plain, and the parentheses are read as part of a leaf.
-/

set_option autoImplicit false

namespace Typesheet

namespace Expression

variable {inner text : Text} {blank : Grammar.Blank}

/-! ## Texts in parentheses -/

def parenthesized (inner : Text) : Text :=
  '(' :: inner ++ ")".toList

theorem tight_parenthesized (inner : Text) : Text.Tight (parenthesized inner) := by
  have opening : Text.Tight ['('] := Text.tight_singleton rfl
  have closing : Text.Tight [')'] := Text.tight_singleton rfl
  exact opening.append inner closing

theorem dropQuotes_parenthesized (inner : Text) :
    dropQuotes (parenthesized inner) = parenthesized inner := by
  have opening : ScanState.isQuote '(' = false := rfl
  have closing : ScanState.isQuote ')' = false := rfl
  have isLast : ('(' :: (inner ++ ")".toList)).getLast? = some ')' :=
    List.getLast?_append_of_ne_nil ('(' :: inner) (List.cons_ne_nil ')' [])
  simp only [parenthesized, dropQuotes, List.cons_append, opening, Bool.false_eq_true, ↓reduceIte,
    isLast, closing]

theorem Balanced.isTokenText (balanced : Balanced inner) : IsTokenText (parenthesized inner) :=
  balanced.passes.group.of_le le_rfl (Nat.zero_le 1)

/-- White space behind the closing parenthesis makes a token plain. -/
theorem Balanced.shape_of_blank (balanced : Balanced inner) (visible : blank.val ≠ []) :
    Shape.ofText (parenthesized inner ++ Grammar.markerText (some blank)) = .plain := by
  have enclosed : cut ScanState.closesGroup (.code 1)
      (inner ++ ")".toList ++ Grammar.markerText (some blank))
        = (inner, some (Grammar.markerText (some blank))) :=
    cut_closesGroup_iff.mpr ⟨List.append_assoc _ _ _, balanced⟩
  -- A group is cut behind the same parenthesis, so nothing else can follow it.
  have behind {other after : Text} (otherBalanced : Balanced other)
      (same : inner ++ ")".toList ++ Grammar.markerText (some blank) = other ++ ')' :: after) :
      Grammar.markerText (some blank) = after := by
    have otherwise := cut_closesGroup_iff.mpr ⟨same, otherBalanced⟩
    rw [enclosed] at otherwise
    exact Option.some.inj (Prod.mk.inj otherwise).2
  rw [Shape.ofText_eq_plain_iff]
  intro other otherBalanced
  constructor
  · intro isGroup
    have nothing := behind otherBalanced (List.cons.inj isGroup).2
    exact absurd nothing (by simp [Grammar.markerText])
  · intro isArray
    have marker := behind otherBalanced (List.cons.inj isArray).2
    exact visible (List.append_left_eq_self.mp marker)

/-! ## What quoting keeps -/

theorem any_isQuote_of_isBlank (blank : Text.IsBlank text) :
    text.any ScanState.isQuote = false := by
  rw [List.any_eq_false]
  intro character member
  have ordinary := isOrdinary_of_isBlank (blank character member)
  simp only [isOrdinary, Bool.and_eq_true, Bool.not_eq_true'] at ordinary
  simp [ordinary.1.1.1]

/-- Quoting adds backslashes only. -/
theorem count_escapeContent {character : Char} (noBackslash : character ≠ '\\') (escaped : Bool)
    (content : Text) :
    (escapeContent escaped content).count character = content.count character := by
  induction content generalizing escaped with
  | nil => rfl
  | cons first rest inductionHypothesis =>
      rw [escapeContent]
      split
      case isTrue =>
        rw [List.count_cons_of_ne noBackslash.symm, List.count_cons, List.count_cons,
          inductionHypothesis]
      case isFalse => rw [List.count_cons, List.count_cons, inductionHypothesis]

theorem count_quoteLiteral {character : Char} (noBackslash : character ≠ '\\')
    (noQuote : character ≠ '\'') (content : Text) :
    (quoteLiteral content).count character = content.count character := by
  rw [quoteLiteral, List.count_append, List.count_cons_of_ne noQuote.symm,
    count_escapeContent noBackslash, List.count_singleton]
  simp [noQuote.symm]

/-- No slice of a text is quoted as the text in parentheses is: a parenthesis is missing. -/
theorem quoteLiteral_parenthesized_ne {slice : Text} (isSlice : slice <:+: inner) :
    quoteLiteral (parenthesized inner) ≠ quoteLiteral slice := by
  intro same
  have counts := congrArg (List.count '(') same
  rw [count_quoteLiteral (by decide) (by decide), count_quoteLiteral (by decide) (by decide)]
    at counts
  have more : inner.count '(' < (parenthesized inner).count '(' := by
    rw [parenthesized, List.cons_append, List.count_cons_self, List.count_append]
    omega
  have fewer : slice.count '(' ≤ inner.count '(' := isSlice.sublist.count_le _
  omega

end Expression

namespace ColumnType

open Expression

variable {scheme : Scheme} {text : Text}

/-- A plain token by itself is read as a leaf. -/
theorem parse_of_plain (tight : Text.Tight text) (whole : IsTokenText text)
    (plain : Shape.ofText text = .plain) : parse scheme text = ofLeaf scheme text := by
  have tokens := Token.texts_last tight whole Text.isBlank_nil Text.isBlank_nil
  rw [List.nil_append, List.append_nil] at tokens
  have kept : [text].filter (fun token => !token.isEmpty) = [text] := by simp [tight.nonempty]
  rw [parse_eq_texts, tokens, kept, List.map_singleton, readToken, ofToken, plain]
  rfl

end ColumnType

namespace Grammar

open Expression ColumnType

variable {inner : Text} {blank : Blank}

/-! ## Groups with white space in front of the marker -/

/-- A parenthesis is in no keyword and in no address. -/
theorem readStem_parenthesized (inner whole : Text) (isArray : Bool) :
    readStem .standard whole (parenthesized inner) isArray
      = if whole.any ScanState.isQuote then ofLiterals whole
        else .unknown (parenthesized inner) isArray := by
  have foreign : Address.isAddressChar '(' = false := rfl
  exact readStem_of_rejects (ofName?_eq_none_of_mem foreign List.mem_cons_self)
    (rejects_standard_of_head? foreign rfl rfl) whole isArray

/-- **A group with white space in front of its marker is read as a leaf**: as a literal with the
parentheses in it if there is a quote between them, and else as an unknown type. -/
theorem parse_parenthesized_blank (balanced : Balanced inner) (visible : blank.val ≠ []) :
    parse .standard (parenthesized inner ++ markerText (some blank))
      = if inner.any ScanState.isQuote then .literal (quoteLiteral (parenthesized inner)) true
        else .unknown (parenthesized inner) true := by
  have tightGroup := tight_parenthesized inner
  have tight : Text.Tight (parenthesized inner ++ markerText (some blank)) := by
    rw [markerText, ← List.append_assoc]
    exact tightGroup.append blank.val tight_marker
  have whole : IsTokenText (parenthesized inner ++ markerText (some blank)) :=
    balanced.isTokenText.append ((Passes.of_isBlank blank.property).append
      (.of_isOrdinary isOrdinary_of_mem_marker))
  have marked : hasArrayMark (parenthesized inner ++ markerText (some blank)) = true := by
    apply hasArrayMark_marked tightGroup
    intro isEmptyGroup
    have lengths := congrArg List.length isEmptyGroup
    have blanks : 0 < blank.val.length := List.length_pos_iff.mpr visible
    simp [parenthesized, markerText] at lengths
    omega
  have quotes : (parenthesized inner ++ markerText (some blank)).any ScanState.isQuote
      = inner.any ScanState.isQuote := by
    simp [parenthesized, markerText, any_isQuote_of_isBlank blank.property, ScanState.isQuote]
  have asLiteral : ofLiterals (parenthesized inner ++ markerText (some blank))
      = .literal (quoteLiteral (parenthesized inner)) true := by
    have single := Token.texts_last tight whole Text.isBlank_nil Text.isBlank_nil
    rw [List.nil_append, List.append_nil] at single
    rw [ofLiterals, single, List.map_singleton, ofLiteral, if_pos marked,
      trim_dropArrayMark tightGroup, dropQuotes_parenthesized]
  rw [parse_of_plain tight whole (balanced.shape_of_blank visible), ofLeaf_eq_readStem,
    tight.trim_eq, if_neg tight.nonempty, if_pos marked, trim_dropArrayMark tightGroup,
    readStem_parenthesized, quotes, asLiteral, marked]

theorem Denoted.ne_unknown {type : ColumnType} (denoted : Denoted type) (text : Text)
    (isArray : Bool) : type ≠ .unknown text isArray := by
  cases denoted with
  | leaf stem marked => cases stem <;> exact nofun
  | union => exact nofun
  | array => exact nofun

/-- The array of a group is not what the group is read as with white space in front of the
marker. -/
theorem parse_parenthesized_blank_ne (content : Expr) (visible : blank.val ≠ []) :
    parse .standard (parenthesized content.text ++ markerText (some blank))
      ≠ arrayOf content.type := by
  have balanced : Balanced content.text := balanced_iff_passes.mpr (Expr.passes 0 content)
  rw [parse_parenthesized_blank balanced visible]
  split
  case isTrue =>
    intro same
    have holds : HoldsLiteral (quoteLiteral (parenthesized content.text))
        (arrayOfGroup content.type) := by
      rw [arrayOfGroup_eq_arrayOf, ← same]
      exact .literal true
    have inContent := holds.of_arrayOfGroup
    rw [← parse_text_of_read content.read] at inContent
    obtain ⟨slice, isSlice, quoted⟩ := inContent.of_parse
    exact quoteLiteral_parenthesized_ne isSlice quoted
  case isFalse => exact (content.denoted.toArray.ne_unknown _ _).symm

/-! ## Terms without a marker -/

/-- The term ends in an array marker. -/
def Term.isMarked : Term → Bool
  | .leaf _ marker => marker.isSome
  | .group _ isArray => isArray

def Term.isGroup : Term → Bool
  | .leaf .. => false
  | .group .. => true

/-- White space in front of the marker of a leaf makes no difference. -/
theorem Leaf.parse_blank_marker (stem : Leaf) (blank : Blank) :
    parse .standard ((Term.leaf stem none).text ++ blank.val ++ "[]".toList)
      = arrayOf (Term.leaf stem none).type := by
  have read := (Term.leaf stem (some blank)).parse_text
  rw [Term.text, markerText, List.append_nil, List.append_assoc, Term.type, arrayOf_leaf_type]
  exact read

/-- A marker directly behind a term makes an array of it. -/
theorem Term.parse_marker {term : Term} (unmarked : term.isMarked = false) :
    parse .standard (term.text ++ "[]".toList) = arrayOf term.type := by
  match term, unmarked with
  | .leaf stem none, _ =>
      have read := stem.parse_blank_marker .none
      rwa [Blank.none, List.append_nil] at read
  | .group content false, _ =>
      have read := (Term.group content true).parse_text
      rw [Term.text, List.append_assoc]
      exact read

/-- **White space in front of an array marker is insignificant behind a leaf, and not behind a
group.**  A term without a marker is read as its array with the marker directly behind it.  With
white space in between it is read as the same type exactly when it is no group.  A group is then
read as a literal that has the parentheses and all between them for its content, if there is a quote
between them, and else as an unknown type with that text. -/
theorem parse_blank_marker_eq_iff {term : Term} (unmarked : term.isMarked = false) {blank : Blank}
    (visible : blank.val ≠ []) :
    let spaced := parse .standard (term.text ++ blank.val ++ "[]".toList)
    parse .standard (term.text ++ "[]".toList) = arrayOf term.type
      ∧ (spaced = parse .standard (term.text ++ "[]".toList) ↔ term.isGroup = false)
      ∧ ∀ content, term = .group content false →
        spaced = if content.text.any ScanState.isQuote then .literal (quoteLiteral term.text) true
          else .unknown term.text true := by
  match term, unmarked with
  | .leaf stem none, unmarked =>
      have direct := Term.parse_marker unmarked
      intro spaced
      have same : spaced = arrayOf (Term.leaf stem none).type := stem.parse_blank_marker blank
      exact ⟨direct, iff_of_true (same.trans direct.symm) rfl, nofun⟩
  | .group content false, unmarked =>
      have direct := Term.parse_marker unmarked
      intro spaced
      have isSpaced : spaced
          = parse .standard (parenthesized content.text ++ markerText (some blank)) :=
        congrArg (parse .standard) (List.append_assoc _ _ _)
      have balanced : Balanced content.text := balanced_iff_passes.mpr (Expr.passes 0 content)
      have differs : spaced ≠ parse .standard ((Term.group content false).text ++ "[]".toList) := by
        rw [direct, isSpaced]
        exact parse_parenthesized_blank_ne content visible
      refine ⟨direct, iff_of_false differs nofun, ?_⟩
      rintro _ ⟨⟩
      rw [isSpaced]
      exact parse_parenthesized_blank balanced visible

/-- A group with a literal in it is read as one literal, and a keyword as its array. -/
theorem parse_blank_marker_of_literal_group :
    let group : Text := "(null | \"a\")".toList
    let blank : Text := " \t".toList
    (∃ content : Expr, (Term.group content false).text = group)
      ∧ parse .standard (group ++ blank ++ "[]".toList)
        = .literal "'(null | \"a\")'".toList true
      ∧ parse .standard (group ++ blank ++ "[]".toList) ≠ parse .standard (group ++ "[]".toList)
      ∧ parse .standard ("null".toList ++ blank ++ "[]".toList) = .keyword .null true := by
  intro group blank
  let letter : Literal := ⟨.double, [.plain 'a' (by decide) (by decide)]⟩
  let content : Expr := .more .none (.leaf (.keyword .null) none) .space
    (.last .space (.leaf (.literal letter) none) .none)
  let wide : Blank := ⟨blank, by decide⟩
  have visible : wide.val ≠ [] := by decide
  have isText : (Term.group content false).text = group := by decide
  have hasQuote : content.text.any ScanState.isQuote = true := by decide
  have quoted : quoteLiteral group = "'(null | \"a\")'".toList := by decide
  have bareGroup : (Term.group content false).isMarked = false := rfl
  have bareKeyword : (Term.leaf (.keyword .null) none).isMarked = false := rfl
  obtain ⟨-, sameGroup, readGroup⟩ := parse_blank_marker_eq_iff bareGroup visible
  obtain ⟨direct, sameKeyword, -⟩ := parse_blank_marker_eq_iff bareKeyword visible
  have asLiteral := readGroup content rfl
  rw [if_pos hasQuote, isText, quoted] at asLiteral
  rw [isText] at sameGroup
  refine ⟨⟨content, isText⟩, asLiteral, mt sameGroup.mp (by decide), ?_⟩
  exact (sameKeyword.mpr rfl).trans direct

/-- **A space between a group and its marker** makes an unknown type of an array of a union. -/
theorem group_with_space_read_as_unknown :
    let group : Text := "(string | number)".toList
    (∃ content : Expr, (Term.group content false).text = group)
      ∧ parse .standard (group ++ "[]".toList)
        = .union "(string | number)[]".toList [.keyword .string false, .keyword .number false] true
      ∧ parse .standard (group ++ " []".toList) = .unknown group true
      ∧ parse .standard (group ++ " []".toList) ≠ parse .standard (group ++ "[]".toList) := by
  intro group
  let content : Expr := .more .none (.leaf (.keyword .string) none) .space
    (.last .space (.leaf (.keyword .number) none) .none)
  exact ⟨⟨content, by decide⟩, by decide +kernel, by decide +kernel, by decide +kernel⟩

end Grammar

end Typesheet
