import Typesheet.Declaration.Render
import Typesheet.Proofs.ColumnType.Requoted
import Typesheet.Proofs.Expression.Balance

/-!
Contract: what the literal nodes of a type hold, whatever text the type is read from.

Owns: the literals of a type, the slices of a text that reading takes, what one literal means to
the scan of a text around it, and the theorem that every literal node holds a quoted slice, which
opens as a literal and is closed exactly when no backslash is left standing at its end.

The quotes at the two ends of a piece are taken off without a look at what stands before the
second one.  So a piece that ends in a backslash, or in an escaped quote, leaves a content that
ends in one, and this backslash escapes the closing quote of the literal.
-/

set_option autoImplicit false

namespace Typesheet

namespace Expression

variable {text : Text}

/-! ## Slices of a text -/

theorem infix_trim (text : Text) : Text.trim text <:+: text := by
  obtain ⟨before, after, -, -, whole⟩ := Text.exists_blanks text
  exact ⟨before, after, whole.symm⟩

theorem prefix_dropArrayMark (text : Text) : dropArrayMark text <+: text := by
  cases found : arrayMark.isSuffixOf? text with
  | none =>
      rw [dropArrayMark, found]
      exact List.prefix_refl text
  | some front =>
      rw [dropArrayMark, found, Option.getD_some,
        ← List.isSuffixOf?_eq_some_iff_append_eq.mp found]
      exact List.prefix_append _ _

theorem infix_dropQuotes (text : Text) : dropQuotes text <:+: text := by
  unfold dropQuotes
  extract_lets opened
  have isSuffix : opened <:+ text := by
    cases text with
    | nil => exact List.nil_suffix
    | cons first rest =>
        cases isQuote : ScanState.isQuote first with
        | true => simp [opened, isQuote]
        | false => simp [opened, isQuote]
  split
  case h_1 last isLast =>
    split
    case isTrue => exact (List.dropLast_prefix opened).isInfix.trans isSuffix.isInfix
    case isFalse => exact isSuffix.isInfix
  case h_2 => exact List.nil_infix

/-- The first token and what is left after it are slices of the text. -/
theorem Token.infix_next (source : Text) :
    (next source).text <:+: source ∧ (next source).rest <:+: source := by
  rcases cut_cases ScanState.separates .start source with
    ⟨final, -, pieces⟩ | ⟨before, character, after, final, -, -, whole, pieces⟩
  · simp only [next, pieces]
    exact ⟨infix_trim source, List.nil_infix⟩
  · simp only [next, pieces, Option.getD_some]
    constructor
    · exact (infix_trim before).trans ⟨[], character :: after, whole.symm⟩
    · exact (infix_trim after).trans ⟨before ++ [character], [], by simp [whole]⟩

theorem Token.infix_of_mem_listTrimmed {token : Token} {source : Text}
    (member : token ∈ listTrimmed source) : token.text <:+: source := by
  fun_induction listTrimmed source with
  | case1 => exact absurd member List.not_mem_nil
  | case2 source nonempty inductionHypothesis =>
      rcases List.mem_cons.mp member with rfl | later
      · exact (infix_next source).1
      · exact (inductionHypothesis later).trans (infix_next source).2

theorem Token.infix_of_mem_list {token : Token} (member : token ∈ list text) :
    token.text <:+: text :=
  (infix_of_mem_listTrimmed member).trans (infix_trim text)

/-- What a group encloses is a slice of it. -/
theorem Shape.infix_of_ofText {inner : Text}
    (found : ofText text = .group inner ∨ ofText text = .groupArray inner) : inner <:+: text := by
  rcases found with isGroup | isArray
  · rw [(ofText_eq_group_iff.mp isGroup).1]
    exact ⟨['('], ")".toList, rfl⟩
  · rw [(ofText_eq_groupArray_iff.mp isArray).1]
    exact ⟨['('], ")[]".toList, rfl⟩

end Expression

namespace ColumnType

open Expression

variable {scheme : Scheme} {type : ColumnType} {types : List ColumnType} {text literal : Text}

/-! ## The literals of a type -/

/-- A literal node with this text is in the type, at any depth. -/
inductive HoldsLiteral (literal : Text) : ColumnType → Prop where
  | literal (isArray : Bool) : HoldsLiteral literal (.literal literal isArray)
  | member {name : Text} {members : List ColumnType} {isArray : Bool} {member : ColumnType}
      (isMember : member ∈ members) (inside : HoldsLiteral literal member) :
      HoldsLiteral literal (.union name members isArray)
  | column {ref : Ref} {column : Field} (isColumn : column ∈ ref.columns)
      (inside : HoldsLiteral literal column.type) : HoldsLiteral literal (.reference ref)

namespace HoldsLiteral

theorem of_ofMembers (holds : HoldsLiteral literal (ofMembers types)) :
    ∃ type ∈ types, HoldsLiteral literal type := by
  rcases types with _ | ⟨first, _ | ⟨second, rest⟩⟩
  · nomatch holds
  · exact ⟨first, List.mem_singleton_self first, holds⟩
  · cases holds with
    | member isMember inside => exact ⟨_, isMember, inside⟩

theorem of_arrayOfGroup (holds : HoldsLiteral literal (arrayOfGroup type)) :
    HoldsLiteral literal type := by
  cases type with
  | keyword word isArray => nomatch holds
  | literal text isArray =>
      cases holds with
      | literal => exact .literal isArray
  | reference ref =>
      cases holds with
      | column isColumn inside =>
          have kept : _ ∈ ref.columns := isColumn
          exact .column kept inside
  | union name members isArray =>
      cases holds with
      | member isMember inside => exact .member isMember inside
  | unknown text isArray => nomatch holds

theorem of_ofLiterals (holds : HoldsLiteral literal (ofLiterals text)) :
    ∃ piece ∈ Token.texts text, HoldsLiteral literal (ofLiteral piece) := by
  have listed : ∃ type ∈ (Token.texts text).map ofLiteral, HoldsLiteral literal type := by
    unfold ofLiterals at holds
    split at holds
    case h_1 only single =>
      rw [single]
      exact ⟨only, List.mem_singleton_self only, holds⟩
    case h_2 =>
      cases holds with
      | member isMember inside => exact ⟨_, isMember, inside⟩
  obtain ⟨type, isMember, inside⟩ := listed
  obtain ⟨piece, isPiece, rfl⟩ := List.mem_map.mp isMember
  exact ⟨piece, isPiece, inside⟩

theorem of_ofLiteral (holds : HoldsLiteral literal (ofLiteral text)) :
    ∃ content, content <:+: text ∧ literal = quoteLiteral content := by
  unfold ofLiteral at holds
  split at holds
  case isTrue =>
    cases holds with
    | literal =>
        refine ⟨_, ?_, rfl⟩
        exact ((infix_dropQuotes _).trans (infix_trim _)).trans (prefix_dropArrayMark text).isInfix
  case isFalse =>
    cases holds with
    | literal => exact ⟨_, infix_dropQuotes text, rfl⟩

/-- A literal node of a leaf is the quoted form of a slice of the leaf. -/
theorem of_ofLeaf (holds : HoldsLiteral literal (ofLeaf scheme text)) :
    ∃ content, content <:+: text ∧ literal = quoteLiteral content := by
  unfold ofLeaf at holds
  extract_lets trimmed isArray base at holds
  split at holds
  case isTrue => nomatch holds
  case isFalse =>
    split at holds
    case h_1 => nomatch holds
    case h_2 =>
      split at holds
      case isTrue =>
        cases holds with
        | column isColumn => exact absurd isColumn List.not_mem_nil
      case isFalse =>
        split at holds
        case h_1 =>
          cases holds with
          | column isColumn => exact absurd isColumn List.not_mem_nil
        case h_2 =>
          split at holds
          case isFalse => nomatch holds
          case isTrue =>
            obtain ⟨piece, isPiece, inPiece⟩ := holds.of_ofLiterals
            obtain ⟨token, isToken, rfl⟩ := List.mem_map.mp isPiece
            obtain ⟨content, isSlice, same⟩ := inPiece.of_ofLiteral
            exact ⟨content, (isSlice.trans (Token.infix_of_mem_list isToken)).trans
              (infix_trim text), same⟩

/-- **Every literal node holds a quoted slice of the text**, however deep in groups and unions it
stands. -/
theorem of_parse (holds : HoldsLiteral literal (parse scheme text)) :
    ∃ content, content <:+: text ∧ literal = quoteLiteral content := by
  induction size : text.length using Nat.strongRecOn generalizing text with
  | ind size inductionHypothesis =>
      subst size
      rw [parse_eq] at holds
      obtain ⟨type, isMember, inside⟩ := holds.of_ofMembers
      obtain ⟨token, isTerm, rfl⟩ := List.mem_map.mp isMember
      have listed := (List.mem_filter.mp isTerm).1
      have isSlice : token.text <:+: text :=
        (Token.infix_of_mem_list listed).trans (infix_trim text)
      have known := Token.shape_of_mem_listTrimmed listed
      have enclosed {inner : Text}
          (shape : token.shape = .group inner ∨ token.shape = .groupArray inner)
          (inGroup : HoldsLiteral literal (parse scheme inner)) :
          ∃ content, content <:+: text ∧ literal = quoteLiteral content := by
        have shorter := length_inner_lt_of_mem_termTokens isTerm shape
        obtain ⟨content, isInner, same⟩ := inductionHypothesis _ shorter inGroup rfl
        rw [known] at shape
        exact ⟨content, (isInner.trans (Shape.infix_of_ofText shape)).trans isSlice, same⟩
      unfold ofToken at inside
      cases shape : token.shape with
      | plain =>
          rw [shape] at inside
          obtain ⟨content, inToken, same⟩ := inside.of_ofLeaf
          exact ⟨content, inToken.trans isSlice, same⟩
      | group inner =>
          rw [shape] at inside
          exact enclosed (.inl shape) inside
      | groupArray inner =>
          simp only [shape] at inside
          split at inside
          case isTrue => nomatch inside
          case isFalse => exact enclosed (.inr shape) inside.of_arrayOfGroup

end HoldsLiteral

/-! ## One literal in a text -/

/-- What a closed literal is to the texts it is put into.  The scan goes through it at every depth
and comes back, so it hides what is in it and is one token, with a marker behind it or not; and
this is how its node is named and written. -/
structure StandsAlone (literal : Text) : Prop where
  closed : IsLiteral '\'' literal
  passes : ∀ bars closes depth, Passes (stopsBelow bars closes) (.code depth) literal (.code depth)
  isToken : ∀ isArray,
    Token.texts (withArrayMark literal isArray) = [withArrayMark literal isArray]
  isName : ∀ isArray, (ColumnType.literal literal isArray).name = withArrayMark literal isArray
  isWritten : ∀ nameOf isArray,
    Declaration.typeText nameOf (.literal literal isArray) = withArrayMark literal isArray

theorem standsAlone_of_isLiteral (closed : IsLiteral '\'' literal) : StandsAlone literal := by
  obtain ⟨quoted, -, rfl⟩ := Grammar.isLiteral_iff_exists.mp closed
  have isToken (isArray : Bool) : Token.texts (withArrayMark quoted.text isArray)
      = [withArrayMark quoted.text isArray] := by
    cases isArray with
    | false =>
        have single := (Grammar.Term.leaf (.literal quoted) none).texts_text
        rwa [Grammar.Term.text, Grammar.markerText, List.append_nil] at single
    | true => exact (Grammar.Term.leaf (.literal quoted) (some .none)).texts_text
  have isName (isArray : Bool) : (ColumnType.literal quoted.text isArray).name
      = withArrayMark quoted.text isArray := by
    have single : Token.texts quoted.text = [quoted.text] := isToken false
    simp [name, single]
  exact ⟨closed, fun _ _ _ => quoted.passes, isToken, isName, fun _ => isName⟩

/-- **Literal nodes are closed up to a backslash at the end.**  For every text and every scheme,
the text of a literal node of the type that the text is read as, as a whole expression or as one
leaf, is a quoted slice of the text.  It opens a literal at its first character, closes none
before its last, and ends in a single quote.  When the slice ends in an even number of backslashes
it is closed there and stands alone; when it ends in an odd number the closing quote is escaped,
and the literal runs on into whatever follows it. -/
theorem literal_closed_iff_backslashes_paired
    (read : type = parse scheme text ∨ type = ofLeaf scheme text)
    (holds : HoldsLiteral literal type) :
    ∃ content, content <:+: text
      ∧ literal = quoteLiteral content
      ∧ OpensLiteral '\'' literal
      ∧ literal.getLast? = some '\''
      ∧ (Even (trailingBackslashes content) → StandsAlone literal)
      ∧ (Odd (trailingBackslashes content) → ¬ IsLiteral '\'' literal
        ∧ ∀ depth, (ScanState.code depth).run literal = .literal depth '\'') := by
  have quoted : ∃ content, content <:+: text ∧ literal = quoteLiteral content := by
    rcases read with rfl | rfl
    · exact holds.of_parse
    · exact holds.of_ofLeaf
  obtain ⟨content, isSlice, rfl⟩ := quoted
  refine ⟨content, isSlice, rfl, opensLiteral_quoteLiteral content, List.getLast?_concat, ?_, ?_⟩
  · intro even
    exact standsAlone_of_isLiteral ((isLiteral_quoteLiteral_iff content).mpr even)
  · intro odd
    refine ⟨?_, run_quoteLiteral_of_odd odd⟩
    rw [isLiteral_quoteLiteral_iff]
    exact Nat.not_even_iff_odd.mpr odd

/-- Two literals of one union, of which the first is closed and the second is not. -/
theorem literals_of_half_closed_union :
    let text : Text := "\"b'\" | 'c\\'".toList
    let first : Text := "'b\\''".toList
    let second : Text := "'c\\'".toList
    parse .standard text
        = .union "'b\\'' | 'c\\'".toList [.literal first false, .literal second false] false
      ∧ StandsAlone first
      ∧ ∀ depth, (ScanState.code depth).run second = .literal depth '\'' := by
  intro text first second
  have read : parse .standard text
      = .union "'b\\'' | 'c\\'".toList [.literal first false, .literal second false] false := by
    decide +kernel
  have holdsFirst : HoldsLiteral first (parse .standard text) := by
    rw [read]
    exact .member List.mem_cons_self (.literal false)
  have holdsSecond : HoldsLiteral second (parse .standard text) := by
    rw [read]
    exact .member (List.mem_cons_of_mem _ List.mem_cons_self) (.literal false)
  refine ⟨read, ?_, ?_⟩
  · obtain ⟨content, -, -, -, -, whenEven, whenOdd⟩ :=
      literal_closed_iff_backslashes_paired (.inl rfl) holdsFirst
    rcases Nat.even_or_odd (trailingBackslashes content) with even | odd
    · exact whenEven even
    · exact absurd ((whenOdd odd).2 0) (by decide)
  · obtain ⟨content, -, -, -, -, whenEven, whenOdd⟩ :=
      literal_closed_iff_backslashes_paired (.inl rfl) holdsSecond
    rcases Nat.even_or_odd (trailingBackslashes content) with even | odd
    · exact absurd (whenEven even).closed.closes (by decide)
    · exact (whenOdd odd).2

/-- A literal of one letter and a backslash is read as it stands, with its last quote escaped. -/
theorem literal_left_open :
    let text : Text := "'a\\'".toList
    parse .standard text = .literal text false
      ∧ ofLeaf .standard text = .literal text false
      ∧ ¬ IsLiteral '\'' text := by
  refine ⟨by decide +kernel, by decide +kernel, ?_⟩
  intro closed
  exact absurd closed.closes (by decide)

end ColumnType

end Typesheet
