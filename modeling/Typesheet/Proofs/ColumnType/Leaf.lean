import Typesheet.ColumnType.Parse
import Typesheet.Proofs.ColumnType.Grammar

/-!
Contract: how the leaves of type expressions are read.

Owns: the array marker behind a stem, the content and the quotes of a literal, which of the
readings of a leaf applies to which, and that a printed leaf is read as the type it denotes.

The readings are tried in order, so each kind of leaf is shown to be none of those before it.
-/

set_option autoImplicit false

namespace Typesheet

namespace Keyword

theorem ofName?_name (word : Keyword) : ofName? word.name = some word := by
  cases word <;> rfl

theorem ofName?_eq_none {text : Text} (foreign : ∀ word : Keyword, word.name ≠ text) :
    ofName? text = none :=
  List.find?_eq_none.mpr fun word _ => by simpa using foreign word

end Keyword

namespace Grammar

open Expression ColumnType

variable {text : Text}

/-! ## Array markers -/

theorem IsStem.head?_append (stem : IsStem text) (rest : Text) :
    (text ++ rest).head? = text.head? :=
  List.head?_append_of_ne_nil _ stem.tight.nonempty

/-- A marker is found behind whatever is no empty group. -/
theorem hasArrayMark_marked (tight : Text.Tight text) (blank : Blank)
    (noGroup : text ++ markerText (some blank) ≠ "()[]".toList) :
    hasArrayMark (text ++ markerText (some blank)) = true := by
  have trimmed : Text.trim (text ++ markerText (some blank)) = text ++ markerText (some blank) := by
    rw [markerText, ← List.append_assoc]
    exact (tight.append blank.val tight_marker).trim_eq
  have marked : arrayMark.isSuffixOf (text ++ markerText (some blank)) = true := by
    rw [List.isSuffixOf_iff_suffix]
    exact ⟨text ++ blank.val, List.append_assoc _ _ _⟩
  rw [hasArrayMark, trimmed, marked, decide_eq_true noGroup]
  rfl

theorem IsStem.hasArrayMark_append (stem : IsStem text) (marker : Option Blank) :
    hasArrayMark (text ++ markerText marker) = marker.isSome := by
  cases marker with
  | none =>
      have unmarked : arrayMark.isSuffixOf text = false := by
        rw [Bool.eq_false_iff, ne_eq, List.isSuffixOf_iff_suffix]
        rintro ⟨front, rfl⟩
        exact stem.noMarker (by simp [arrayMark])
      rw [hasArrayMark, (stem.tight_append none).trim_eq]
      simp [markerText, unmarked]
  | some blank =>
      apply hasArrayMark_marked stem.tight
      intro isGroup
      apply stem.noGroup
      rw [← stem.head?_append (markerText (some blank)), isGroup]
      rfl

theorem dropArrayMark_append (text : Text) : dropArrayMark (text ++ "[]".toList) = text := by
  have found : arrayMark.isSuffixOf? (text ++ arrayMark) = some text :=
    List.isSuffixOf?_eq_some_iff_append_eq.mpr rfl
  rw [dropArrayMark, ← arrayMark, found, Option.getD_some]

/-- Without its marker and the white space in front of it, a tight text is left. -/
theorem trim_dropArrayMark (tight : Text.Tight text) (blank : Blank) :
    Text.trim (dropArrayMark (text ++ markerText (some blank))) = text := by
  rw [markerText, ← List.append_assoc, dropArrayMark_append]
  exact tight.trim_pad Text.isBlank_nil blank.property

/-- Read a leaf that is known without its array marker.  Keywords come first, then addresses,
then literals. -/
def readStem (scheme : Scheme) (whole stem : Text) (isArray : Bool) : ColumnType :=
  match Keyword.ofName? stem with
  | some word => .keyword word isArray
  | none =>
      if scheme.isNamespace stem then .reference (.toNamespace stem isArray)
      else
        match scheme.readColumn stem with
        | .ok column => .reference (.toColumn stem column.selector isArray)
        | .error _ =>
            if whole.any ScanState.isQuote then ofLiterals whole else .unknown stem isArray

theorem ofLeaf_eq_readStem (scheme : Scheme) (text : Text) :
    ofLeaf scheme text
      = if Text.trim text = [] then .unknown [] false
        else
          readStem scheme (Text.trim text)
            (if hasArrayMark (Text.trim text) then Text.trim (dropArrayMark (Text.trim text))
              else Text.trim text)
            (hasArrayMark (Text.trim text)) :=
  rfl

/-- A leaf is read by its stem; its marker sets the flag. -/
theorem IsStem.ofLeaf_append (scheme : Scheme) (stem : IsStem text) (marker : Option Blank) :
    ofLeaf scheme (text ++ markerText marker)
      = readStem scheme (text ++ markerText marker) text marker.isSome := by
  have tight := stem.tight_append marker
  have unmarked : (if marker.isSome then Text.trim (dropArrayMark (text ++ markerText marker))
      else text ++ markerText marker) = text := by
    cases marker with
    | none => exact List.append_nil text
    | some blank => exact trim_dropArrayMark stem.tight blank
  rw [ofLeaf_eq_readStem, tight.trim_eq, if_neg tight.nonempty, stem.hasArrayMark_append,
    unmarked]

/-! ## Literals -/

/-- The content of a literal keeps its escapes, and a bare `'` takes one. -/
theorem escapeContent_append {quote : Quote} (piece : Piece quote) (rest : Text) :
    escapeContent false (piece.text ++ rest)
      = piece.canonical.text ++ escapeContent false rest := by
  cases piece with
  | plain character noBackslash noQuote =>
      by_cases bare : character = '\''
      · subst bare
        rfl
      · simp [Piece.text, Piece.canonical, escapeContent, bare, noBackslash]
  | escaped character => simp [Piece.text, Piece.canonical, escapeContent]

theorem Literal.quoteLiteral_body (literal : Literal) :
    quoteLiteral literal.body = literal.canonical.text := by
  have content : ∀ pieces : List (Piece literal.quote),
      escapeContent false (pieces.flatMap Piece.text)
        = (pieces.map Piece.canonical).flatMap Piece.text := by
    intro pieces
    induction pieces with
    | nil => rfl
    | cons piece rest inductionHypothesis =>
        rw [List.flatMap_cons, escapeContent_append, inductionHypothesis]
        rfl
  rw [quoteLiteral, Literal.body, content]
  rfl

theorem Literal.dropQuotes_text (literal : Literal) : dropQuotes literal.text = literal.body := by
  have isQuote := literal.quote.isQuote_sign
  simp [dropQuotes, Literal.text, isQuote]

theorem Literal.ofLiteral_append (literal : Literal) (marker : Option Blank) :
    ofLiteral (literal.text ++ markerText marker)
      = .literal literal.canonical.text marker.isSome := by
  rw [ofLiteral, literal.isStem.hasArrayMark_append]
  cases marker with
  | none =>
      rw [markerText, List.append_nil, literal.dropQuotes_text, literal.quoteLiteral_body]
      rfl
  | some blank =>
      rw [trim_dropArrayMark literal.isStem.tight, literal.dropQuotes_text,
        literal.quoteLiteral_body]
      rfl

theorem Literal.ofLiterals_append (literal : Literal) (marker : Option Blank) :
    ofLiterals (literal.text ++ markerText marker)
      = .literal literal.canonical.text marker.isSome := by
  have single : Token.texts (literal.text ++ markerText marker)
      = [literal.text ++ markerText marker] := (Term.leaf (.literal literal) marker).texts_text
  rw [ofLiterals, single, List.map_singleton, literal.ofLiteral_append]

/-! ## Which reading applies -/

theorem ofName?_eq_none_of_isNamespace (isAddress : Address.isNamespace text = true) :
    Keyword.ofName? text = none := by
  apply Keyword.ofName?_eq_none
  rintro word rfl
  cases word <;> exact absurd isAddress (by decide)

theorem ofName?_eq_none_of_dot (hasDot : '.' ∈ text) : Keyword.ofName? text = none := by
  apply Keyword.ofName?_eq_none
  rintro word rfl
  cases word <;> exact absurd hasDot (by decide)

theorem isNamespace_eq_false_of_dot (hasDot : '.' ∈ text) : Address.isNamespace text = false :=
  Bool.eq_false_iff.mpr fun isAddress =>
    (Address.isAddressChar_of_isNamespace isAddress hasDot).2 rfl

/-- A column address is read as its namespace and its selector. -/
theorem read_column {uri : ColumnUri} (wellFormed : Address.isSelector uri.selector = true) :
    ColumnUri.read (Leaf.column uri wellFormed).text = .ok uri := by
  have outside : '.' ∉ uri.owner.text := fun member =>
    (Address.isAddressChar_of_isNamespace uri.owner.wellFormed member).2 rfl
  have trimmed := (Leaf.column uri wellFormed).isStem.tight.trim_eq
  rw [ColumnUri.read, trimmed]
  simp [Leaf.text, Address.cutAt_append outside, uri.owner.wellFormed, wellFormed]

/-- A text that a scheme takes for no address. -/
structure Rejects (scheme : Scheme) (text : Text) : Prop where
  noNamespace : scheme.isNamespace text = false
  noColumn : ∃ error, scheme.readColumn text = .error error

/-- A character that no keyword and no address holds tells a text from both. -/
theorem ofName?_eq_none_of_mem {character : Char}
    (foreign : Address.isAddressChar character = false) (member : character ∈ text) :
    Keyword.ofName? text = none := by
  apply Keyword.ofName?_eq_none
  rintro word rfl
  exact Address.ne_of_isAddressChar (isAddressChar_of_mem_name member) foreign rfl

theorem isNamespace_eq_false_of_mem {character : Char}
    (foreign : Address.isAddressChar character = false) (member : character ∈ text) :
    Address.isNamespace text = false := by
  rw [Bool.eq_false_iff]
  intro isAddress
  have letter := (Address.isAddressChar_of_isNamespace isAddress member).1
  exact Address.ne_of_isAddressChar letter foreign rfl

/-- What stands in front of the first dot starts like the text, and so it is no namespace
address when the text starts with a character that is in none. -/
theorem rejects_standard_of_head? {first : Char}
    (foreign : Address.isAddressChar first = false) (visible : Text.isBlank first = false)
    (isFirst : text.head? = some first) : Rejects .standard text where
  noNamespace := isNamespace_eq_false_of_mem foreign (List.mem_of_mem_head? isFirst)
  noColumn := by
    obtain ⟨rest, trimmed⟩ := List.head?_eq_some_iff.mp (Text.head?_trim visible isFirst)
    have differs : first ≠ '.' := (Address.ne_of_isAddressChar (by decide) foreign).symm
    change ∃ error, ColumnUri.read text = .error error
    rw [ColumnUri.read, trimmed]
    cases found : Address.cutAt '.' (first :: rest) with
    | none => exact ⟨_, rfl⟩
    | some pieces =>
        have starts := Address.head?_of_cutAt found differs
        have noOwner : Address.isNamespace pieces.1 = false :=
          isNamespace_eq_false_of_mem foreign (List.mem_of_mem_head? starts)
        exact ⟨_, dif_neg (by simp [noOwner])⟩

/-- What is no keyword and no address is read as literals or not at all. -/
theorem readStem_of_rejects {scheme : Scheme} {stem : Text}
    (noKeyword : Keyword.ofName? stem = none) (rejects : Rejects scheme stem) (whole : Text)
    (isArray : Bool) :
    readStem scheme whole stem isArray
      = if whole.any ScanState.isQuote then ofLiterals whole else .unknown stem isArray := by
  obtain ⟨error, noColumn⟩ := rejects.noColumn
  simp only [readStem, noKeyword, rejects.noNamespace, noColumn, Bool.false_eq_true, ↓reduceIte]

theorem Quote.isAddressChar_sign (quote : Quote) : Address.isAddressChar quote.sign = false := by
  cases quote <;> decide

theorem Literal.rejects_standard (literal : Literal) : Rejects .standard literal.text :=
  rejects_standard_of_head? literal.quote.isAddressChar_sign literal.quote.not_isBlank_sign rfl

/-- A literal that is no address is read as the same literal in single quotes. -/
theorem Literal.ofLeaf_append {scheme : Scheme} (literal : Literal) (marker : Option Blank)
    (rejects : Rejects scheme literal.text) :
    ofLeaf scheme (literal.text ++ markerText marker)
      = .literal literal.canonical.text marker.isSome := by
  have noKeyword : Keyword.ofName? literal.text = none :=
    ofName?_eq_none_of_mem literal.quote.isAddressChar_sign List.mem_cons_self
  have hasQuote : (literal.text ++ markerText marker).any ScanState.isQuote = true := by
    simp [Literal.text, literal.quote.isQuote_sign]
  rw [literal.isStem.ofLeaf_append, readStem_of_rejects noKeyword rejects, if_pos hasQuote,
    literal.ofLiterals_append]

/-- **A printed leaf is read as the type it denotes.** -/
theorem Leaf.ofLeaf_append (leaf : Leaf) (marker : Option Blank) :
    ofLeaf .standard (leaf.text ++ markerText marker) = leaf.type marker.isSome := by
  cases leaf with
  | keyword word =>
      rw [(Leaf.keyword word).isStem.ofLeaf_append]
      simp only [readStem, Leaf.text, Keyword.ofName?_name, Leaf.type]
  | whole uri =>
      have isNamespace : Scheme.standard.isNamespace uri.text = true := uri.wellFormed
      rw [(Leaf.whole uri).isStem.ofLeaf_append]
      simp only [readStem, Leaf.text, ofName?_eq_none_of_isNamespace uri.wellFormed, isNamespace,
        ↓reduceIte, Leaf.type, Reference.toNamespace]
  | column uri wellFormed =>
      have hasDot : '.' ∈ (Leaf.column uri wellFormed).text := by simp [Leaf.text]
      have noNamespace : Scheme.standard.isNamespace (Leaf.column uri wellFormed).text = false :=
        isNamespace_eq_false_of_dot hasDot
      have isColumn : Scheme.standard.readColumn (Leaf.column uri wellFormed).text = .ok uri :=
        read_column wellFormed
      rw [(Leaf.column uri wellFormed).isStem.ofLeaf_append]
      simp only [readStem, ofName?_eq_none_of_dot hasDot, noNamespace, isColumn,
        Bool.false_eq_true, ↓reduceIte, Leaf.type, Reference.toColumn]
  | literal quoted => exact quoted.ofLeaf_append marker quoted.rejects_standard

end Grammar

end Typesheet
