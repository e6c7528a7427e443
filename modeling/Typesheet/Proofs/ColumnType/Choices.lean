import Typesheet.Proofs.ColumnType.Reading

/-!
Contract: an expression of literals is read the same as one leaf and as an expression.

Owns: expressions whose terms are all literals, what the reader of leaves makes of a text that
starts with a quote, and the agreement of the two readers on such expressions and on the names of
their types.

The reader of leaves takes one array marker off the whole text to look for a keyword or an
address, finds none behind the first quote, and then cuts the text, with all its markers, into
tokens of its own.  These are the tokens that the reader of expressions has found already.
-/

set_option autoImplicit false

namespace Typesheet

namespace Grammar

open Expression ColumnType

variable {scheme : Scheme} {text : Text} {quote : Quote} {expr : Expr}

/-! ## Texts that start with a quote -/

/-- The scheme takes no text that starts with a quote for an address. -/
def RejectsQuoted (scheme : Scheme) : Prop :=
  ∀ (quote : Quote) (text : Text), text.head? = some quote.sign → Rejects scheme text

theorem rejectsQuoted_standard : RejectsQuoted .standard :=
  fun quote _ => rejects_standard_of_head? quote.isAddressChar_sign quote.not_isBlank_sign

theorem head?_dropArrayMark {first : Char} (isFirst : text.head? = some first)
    (noMarker : first ≠ '[') : (dropArrayMark text).head? = some first := by
  cases found : arrayMark.isSuffixOf? text with
  | none => rwa [dropArrayMark, found]
  | some front =>
      have whole := List.isSuffixOf?_eq_some_iff_append_eq.mp found
      rw [dropArrayMark, found, Option.getD_some]
      cases front with
      | nil =>
          rw [← whole] at isFirst
          exact absurd (Option.some.inj isFirst).symm noMarker
      | cons character rest =>
          rw [← whole] at isFirst
          exact isFirst

/-- Behind the first quote there is neither a keyword nor an address, with or without a marker at
the end. -/
theorem ofLeaf_of_quoted (rejects : RejectsQuoted scheme)
    (isFirst : (Text.trim text).head? = some quote.sign) :
    ofLeaf scheme text = ofLiterals (Text.trim text) := by
  have visible := quote.not_isBlank_sign
  have noMarker : quote.sign ≠ '[' := quote.sign_ne '[' rfl
  have nonempty : Text.trim text ≠ [] := by
    intro isEmpty
    rw [isEmpty] at isFirst
    exact absurd isFirst (by simp)
  have hasQuote : (Text.trim text).any ScanState.isQuote = true :=
    List.any_eq_true.mpr ⟨_, List.mem_of_mem_head? isFirst, quote.isQuote_sign⟩
  rw [ofLeaf_eq_readStem, if_neg nonempty]
  generalize stemEq : (if hasArrayMark (Text.trim text) then
    Text.trim (dropArrayMark (Text.trim text)) else Text.trim text) = stem
  have stemFirst : stem.head? = some quote.sign := by
    subst stemEq
    split
    case isTrue => exact Text.head?_trim visible (head?_dropArrayMark isFirst noMarker)
    case isFalse => exact isFirst
  have noKeyword : Keyword.ofName? stem = none :=
    ofName?_eq_none_of_mem quote.isAddressChar_sign (List.mem_of_mem_head? stemFirst)
  rw [readStem_of_rejects noKeyword (rejects quote stem stemFirst), if_pos hasQuote]

theorem memberName_ofLiteral (piece : Text) :
    memberName (ofLiteral piece) = (ofLiteral piece).name := by
  unfold ofLiteral
  split <;> rfl

/-- Several literals make the union that several terms make. -/
theorem ofLiterals_eq_ofMembers (nonempty : Token.texts text ≠ []) :
    ofLiterals text = ofMembers ((Token.texts text).map ofLiteral) := by
  have names (pieces : List Text) :
      separator.intercalate ((pieces.map ofLiteral).map name)
        = unionName (pieces.map ofLiteral) := by
    rw [unionName, List.map_map, List.map_map]
    exact congrArg _ (List.map_congr_left fun piece _ => (memberName_ofLiteral piece).symm)
  rw [ofLiterals]
  obtain ⟨first, others, listed⟩ := List.exists_cons_of_ne_nil nonempty
  rw [listed]
  cases others with
  | nil => rfl
  | cons second rest =>
      exact congrArg (ColumnType.union · _ false) (names (first :: second :: rest))

/-! ## Expressions of literals -/

/-- Every term is a literal, with or without an array marker. -/
def Expr.OfLiterals (expr : Expr) : Prop :=
  ∀ term ∈ expr.terms, ∃ quoted marker, term = .leaf (.literal quoted) marker

/-- A trimmed expression starts with one of its terms. -/
theorem Expr.exists_trim_text (expr : Expr) :
    ∃ term ∈ expr.terms, ∃ rest, Text.trim expr.text = term.text ++ rest := by
  have starts (before : Blank) (term : Term) (rest : Text) :
      Text.trim (before.val ++ (term.text ++ rest)) = term.text ++ Text.trimEnd rest := by
    have padded := Text.trim_pad before.property Text.isBlank_nil (term.text ++ rest)
    rw [List.append_nil, term.tight.trim_append] at padded
    exact padded
  cases expr with
  | last before term after =>
      refine ⟨term, List.mem_singleton_self term, Text.trimEnd after.val, ?_⟩
      rw [Expr.text, List.append_assoc, starts]
  | more before term after rest =>
      refine ⟨term, List.mem_cons_self, Text.trimEnd (after.val ++ '|' :: rest.text), ?_⟩
      rw [Expr.text, List.append_assoc, List.append_assoc, starts]

theorem Expr.OfLiterals.head?_trim_text (literals : expr.OfLiterals) :
    ∃ quote : Quote, (Text.trim expr.text).head? = some quote.sign := by
  obtain ⟨term, isTerm, rest, trimmed⟩ := expr.exists_trim_text
  obtain ⟨quoted, marker, rfl⟩ := literals term isTerm
  rw [trimmed]
  exact ⟨quoted.quote, rfl⟩

theorem Expr.OfLiterals.map_ofLiteral (literals : expr.OfLiterals) :
    (expr.terms.map Term.text).map ofLiteral = expr.types := by
  rw [expr.types_eq_map, List.map_map]
  apply List.map_congr_left
  intro term isTerm
  obtain ⟨quoted, marker, rfl⟩ := literals term isTerm
  exact quoted.ofLiteral_append marker

/-- **The reader of leaves** reads an expression of literals as the type that it denotes. -/
theorem Expr.OfLiterals.ofLeaf_text (literals : expr.OfLiterals) (rejects : RejectsQuoted scheme) :
    ofLeaf scheme expr.text = expr.type := by
  obtain ⟨quote, isFirst⟩ := literals.head?_trim_text
  have tokens : Token.texts (Text.trim expr.text) = expr.terms.map Term.text := by
    rw [← expr.texts_text, Token.texts_trim]
  have nonempty : Token.texts (Text.trim expr.text) ≠ [] := by
    rw [tokens]
    cases expr <;> exact List.cons_ne_nil _ _
  rw [ofLeaf_of_quoted rejects isFirst, ofLiterals_eq_ofMembers nonempty, tokens,
    literals.map_ofLiteral, ofMembers_types]

/-- **The reader of expressions** reads it as the same type. -/
theorem Expr.OfLiterals.parse_text (literals : expr.OfLiterals) (rejects : RejectsQuoted scheme) :
    parse scheme expr.text = expr.type := by
  apply parse_text_of_read
  rw [expr.types_eq_map]
  apply List.map_congr_left
  intro term isTerm
  obtain ⟨quoted, marker, rfl⟩ := literals term isTerm
  have plain : Shape.ofText (quoted.text ++ markerText marker) = .plain := by
    apply Shape.ofText_of_head?_ne
    rw [quoted.isStem.head?_append]
    exact quoted.isStem.noGroup
  rw [readToken, ofToken, Term.text, Leaf.text, plain]
  exact quoted.ofLeaf_append marker (rejects quoted.quote quoted.text rfl)

/-! ## The name of an expression of literals -/

theorem Expr.OfLiterals.name_type (literals : expr.OfLiterals) :
    expr.type.name = joined expr.types := by
  cases expr with
  | last before term after =>
      obtain ⟨quoted, marker, rfl⟩ := literals term (List.mem_singleton_self term)
      have single : joined [(Leaf.literal quoted).type marker.isSome]
          = shown ((Leaf.literal quoted).type marker.isSome) := List.intercalate_singleton
      exact (name_leaf_type (.literal quoted) marker.isSome).trans single.symm
  | more before term after rest => rfl

/-- The name of an expression of literals is an expression of literals. -/
theorem Expr.OfLiterals.exists_named (literals : expr.OfLiterals) :
    ∃ named : Expr, named.OfLiterals ∧ named.text = expr.type.name ∧ named.type = expr.type := by
  have tidied : ∀ term ∈ expr.terms, ∃ other : Term,
      (∃ quoted marker, other = .leaf (.literal quoted) marker)
        ∧ other.text = shown term.type ∧ other.type = term.type := by
    intro term isTerm
    obtain ⟨quoted, marker, rfl⟩ := literals term isTerm
    exact ⟨(Leaf.literal quoted).tidied marker.isSome, ⟨_, _, rfl⟩, Leaf.text_tidied _ _,
      Leaf.type_tidied _ _⟩
  choose! tidy isLiteral isText isType using tidied
  have nonempty : expr.terms.map tidy ≠ [] := by
    cases expr <;> exact List.cons_ne_nil _ _
  obtain ⟨named, terms, text, types⟩ := exists_expr_of_terms nonempty
  have sameTypes : named.types = expr.types := by
    rw [types, List.map_map, expr.types_eq_map]
    exact List.map_congr_left isType
  refine ⟨named, ?_, ?_, ?_⟩
  · rw [OfLiterals, terms]
    exact List.forall_mem_map.mpr isLiteral
  · rw [text, literals.name_type, joined, expr.types_eq_map, List.map_map, List.map_map]
    exact congrArg _ (List.map_congr_left isText)
  · rw [← ofMembers_types, sameTypes, ofMembers_types]

/-- **The two readers of literals agree.**  An expression whose terms are all literals, in either
quote, each with or without an array marker and laid out in any way, is read as the type that it
denotes, both as one leaf and as an expression; and the name of this type is read as the type again
as one leaf.  So it is under the standard scheme, and under every other scheme that takes no text
that starts with a quote for an address. -/
theorem ofLeaf_eq_parse_of_literals (literals : expr.OfLiterals) :
    RejectsQuoted .standard
      ∧ ∀ scheme, RejectsQuoted scheme →
        ofLeaf scheme expr.text = parse scheme expr.text
          ∧ ofLeaf scheme (ofLeaf scheme expr.text).name = ofLeaf scheme expr.text
          ∧ parse scheme expr.text = expr.type := by
  refine ⟨rejectsQuoted_standard, fun scheme rejects => ?_⟩
  obtain ⟨named, namedLiterals, isName, isType⟩ := literals.exists_named
  have asLeaf : ofLeaf scheme expr.text = expr.type := literals.ofLeaf_text rejects
  have again : ofLeaf scheme expr.type.name = expr.type := by
    rw [← isName, namedLiterals.ofLeaf_text rejects, isType]
  have asExpression : parse scheme expr.text = expr.type := literals.parse_text rejects
  exact ⟨asLeaf.trans asExpression.symm, by rw [asLeaf, again], asExpression⟩

/-- A bar in double quotes with a spaced marker, an escaped quote, and a parenthesis. -/
theorem ofLeaf_eq_parse_of_three_literals :
    let text : Text := " \"a|b\" []|'it\\'s' | \"(\"".toList
    let type : ColumnType := .union "'a|b'[] | 'it\\'s' | '('".toList
      [.literal "'a|b'".toList true, .literal "'it\\'s'".toList false, .literal "'('".toList false]
      false
    ∃ expr : Expr, expr.OfLiterals ∧ expr.text = text ∧ RejectsQuoted .standard
      ∧ ofLeaf .standard text = type ∧ parse .standard text = type
      ∧ ofLeaf .standard type.name = type := by
  intro text type
  let barred : Literal :=
    ⟨.double, [.plain 'a' (by decide) (by decide), .plain '|' (by decide) (by decide),
      .plain 'b' (by decide) (by decide)]⟩
  let escaped : Literal :=
    ⟨.single, [.plain 'i' (by decide) (by decide), .plain 't' (by decide) (by decide),
      .escaped '\'', .plain 's' (by decide) (by decide)]⟩
  let opened : Literal := ⟨.double, [.plain '(' (by decide) (by decide)]⟩
  let expr : Expr :=
    .more .space (.leaf (.literal barred) (some .space)) .none
      (.more .none (.leaf (.literal escaped) none) .space
        (.last .space (.leaf (.literal opened) none) .none))
  have literals : expr.OfLiterals := by
    simp [Expr.OfLiterals, expr, Expr.terms]
  have isText : expr.text = text := by decide
  have isType : expr.type = type := by decide
  obtain ⟨standard, agree⟩ := ofLeaf_eq_parse_of_literals literals
  obtain ⟨asLeaf, again, asExpression⟩ := agree .standard standard
  rw [isText] at asLeaf again asExpression
  rw [asExpression, isType] at asLeaf
  rw [asLeaf] at again
  exact ⟨expr, literals, isText, standard, asLeaf, asExpression.trans isType, again⟩

end Grammar

end Typesheet
