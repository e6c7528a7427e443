import Typesheet.Proofs.ColumnType.Leaf

/-!
Contract: the reader of type expressions against their grammar.

Owns: reading of an expression by the texts of its tokens, the types that expressions denote,
the names of such types, and the two results about them: an expression is read as the type
that it denotes, and the display name of that type is read as the type again.

A printed expression is cut into its terms (`Expr.texts_text`), so reading follows the syntax
tree.  For the way back, every denoted type is shown by a text that is itself printed from a
tree with that type (`Denoted.exists_expr`).
-/

set_option autoImplicit false

namespace Typesheet

namespace ColumnType

open Expression

/-- Read one token by its text, which tells its shape. -/
def readToken (scheme : Scheme) (text : Text) : ColumnType :=
  ofToken scheme { shape := Shape.ofText text, text, source := text, rest := [] }

/-- An expression is read by the texts of its tokens. -/
theorem parse_eq_texts (scheme : Scheme) (text : Text) :
    parse scheme text
      = ofMembers (((Token.texts text).filter fun token => !token.isEmpty).map
          (readToken scheme)) := by
  have tokens : termTokens text
      = (Token.list text).filter fun token => !token.text.isEmpty := by
    rw [termTokens, Token.list, Text.trim_trim, Token.list]
  have known : ∀ token ∈ termTokens text, ofToken scheme token = readToken scheme token.text := by
    intro token member
    have isShape := Token.shape_of_mem_listTrimmed (List.mem_filter.mp member).1
    rw [readToken, ofToken, ofToken, isShape]
  rw [parse_eq, List.map_congr_left known, tokens, Token.texts, List.filter_map, List.map_map]
  rfl

end ColumnType

namespace Grammar

open Expression ColumnType

/-! ## The types that expressions denote -/

/-- The types that the grammar has: the leaves, the unions of several of its types, and the
arrays of its unions. -/
inductive Denoted : ColumnType → Prop where
  | leaf (stem : Leaf) (isArray : Bool) : Denoted (stem.type isArray)
  | union (members : List ColumnType) (several : 2 ≤ members.length)
      (denoted : ∀ member ∈ members, Denoted member) : Denoted (alternatives members)
  | array (name : Text) (members : List ColumnType) (isArray : Bool)
      (content : Denoted (.union name members isArray)) :
      Denoted (arrayOf (.union name members isArray))

theorem arrayOf_leaf_type (stem : Leaf) (isArray : Bool) :
    arrayOf (stem.type isArray) = stem.type true := by
  cases stem <;> rfl

theorem Denoted.toArray {type : ColumnType} (denoted : Denoted type) :
    Denoted (arrayOf type) := by
  cases denoted with
  | leaf stem isArray =>
      rw [arrayOf_leaf_type]
      exact .leaf stem true
  | union members several denoted =>
      exact .array _ _ _ (.union members several denoted)
  | array name members isArray content => exact .array _ _ _ (.array name members isArray content)

theorem Expr.length_types_pos (expr : Expr) : 0 < expr.types.length := by
  cases expr <;> simp [Expr.types]

mutual

theorem Term.denoted : ∀ term : Term, Denoted term.type
  | .leaf stem marker => .leaf stem marker.isSome
  | .group content false => content.denoted
  | .group content true => content.denoted.toArray

theorem Expr.denoted : ∀ expr : Expr, Denoted expr.type
  | .last _ term _ => term.denoted
  | .more _ term _ rest => by
      refine .union _ (Nat.succ_le_succ rest.length_types_pos) ?_
      exact List.forall_mem_cons.mpr ⟨term.denoted, rest.denoted_types⟩

theorem Expr.denoted_types : ∀ expr : Expr, ∀ type ∈ expr.types, Denoted type
  | .last _ term _ => List.forall_mem_singleton.mpr term.denoted
  | .more _ term _ rest => List.forall_mem_cons.mpr ⟨term.denoted, rest.denoted_types⟩

end

/-! ## The names of denoted types -/

theorem withArrayMark_eq_marked (text : Text) (isArray : Bool) :
    withArrayMark text isArray = marked text isArray := by
  cases isArray <;> rfl

/-- A leaf shows the same by itself and as a member of a union. -/
theorem name_leaf_type (stem : Leaf) (isArray : Bool) :
    (stem.type isArray).name = shown (stem.type isArray) := by
  cases stem with
  | keyword word => exact withArrayMark_eq_marked _ _
  | whole uri => exact withArrayMark_eq_marked _ _
  | column uri wellFormed => exact withArrayMark_eq_marked _ _
  | literal quoted =>
      have single : Token.texts quoted.canonical.text = [quoted.canonical.text] := by
        simpa [Term.text, Leaf.text, markerText] using
          (Term.leaf (.literal quoted.canonical) none).texts_text
      simp [Leaf.type, name, shown, single, withArrayMark_eq_marked]

theorem Denoted.memberName_eq {type : ColumnType} (denoted : Denoted type) :
    memberName type = shown type := by
  cases denoted with
  | leaf stem isArray =>
      rw [← name_leaf_type]
      cases stem <;> rfl
  | union members several denoted => rfl
  | array name members isArray content => rfl

theorem unionName_eq_joined {members : List ColumnType}
    (denoted : ∀ member ∈ members, Denoted member) : unionName members = joined members := by
  rw [unionName, joined, List.map_congr_left fun member isMember =>
    (denoted member isMember).memberName_eq]
  rfl

/-! ## Reading -/

theorem arrayOfGroup_eq_arrayOf (type : ColumnType) : arrayOfGroup type = arrayOf type := by
  cases type <;> rfl

theorem ofMembers_types (expr : Expr) : ofMembers expr.types = expr.type := by
  cases expr with
  | last before term after => rfl
  | more before term after rest =>
      have named := unionName_eq_joined (Expr.more before term after rest).denoted_types
      have several : ∃ next others, rest.types = next :: others := by
        cases rest with
        | last => exact ⟨_, _, rfl⟩
        | more => exact ⟨_, _, rfl⟩
      obtain ⟨next, others, isRest⟩ := several
      have union : ofMembers (term.type :: next :: others)
          = .union (unionName (term.type :: next :: others)) (term.type :: next :: others) false :=
        rfl
      rw [Expr.types, isRest] at named ⊢
      rw [union, named, Expr.type, isRest]
      rfl

/-- An expression is read term by term. -/
theorem parse_text_of_read {scheme : Scheme} {expr : Expr}
    (read : expr.terms.map (fun term => readToken scheme term.text) = expr.types) :
    parse scheme expr.text = expr.type := by
  have visible : ∀ text ∈ expr.terms.map Term.text, (!text.isEmpty) = true := by
    simp [fun term : Term => term.tight.nonempty]
  rw [parse_eq_texts, expr.texts_text, List.filter_eq_self.mpr visible, List.map_map,
    ← ofMembers_types, ← read]
  rfl

mutual

theorem Term.read : ∀ term : Term, readToken .standard term.text = term.type
  | .leaf stem marker => by
      have plain : Shape.ofText (stem.text ++ markerText marker) = .plain := by
        apply Shape.ofText_of_head?_ne
        rw [stem.isStem.head?_append]
        exact stem.isStem.noGroup
      rw [readToken, ofToken, Term.text, plain]
      exact stem.ofLeaf_append marker
  | .group content false => by
      rw [readToken, ofToken, Term.text, (Shape.ofText_group (Expr.passes 1 content)).1]
      exact parse_text_of_read content.read
  | .group content true => by
      have visible : Text.isBlankText content.text = false := by
        rw [Text.isBlankText, List.isEmpty_eq_false_iff]
        exact mt Text.trim_eq_nil_iff.mp content.not_isBlank
      rw [readToken, ofToken, Term.text, (Shape.ofText_group (Expr.passes 1 content)).2]
      simp only [visible, Bool.false_eq_true, ↓reduceIte, parse_text_of_read content.read,
        arrayOfGroup_eq_arrayOf, Term.type]

theorem Expr.read : ∀ expr : Expr,
    expr.terms.map (fun term => readToken .standard term.text) = expr.types
  | .last _ term _ => congrArg (fun type => [type]) term.read
  | .more _ term _ rest => congrArg₂ List.cons term.read rest.read

end

/-- **A printed expression is read as the type it denotes**, however it is laid out. -/
theorem parse_text_eq_type (expr : Expr) : parse .standard expr.text = expr.type :=
  parse_text_of_read expr.read

/-! ## The names as expressions -/

/-- A term with no white space around it. -/
def Term.alone (term : Term) : Expr := .last .none term .none

theorem Term.text_alone (term : Term) : term.alone.text = term.text :=
  List.append_nil _

theorem Term.type_alone (term : Term) : term.alone.type = term.type :=
  rfl

theorem Term.parse_text (term : Term) : parse .standard term.text = term.type := by
  have alone := parse_text_of_read term.alone.read
  rwa [term.text_alone, term.type_alone] at alone

/-- In single quotes there is no bare `'` left. -/
theorem Piece.canonical_of_single (piece : Piece .single) : piece.canonical = piece := by
  cases piece with
  | plain character noBackslash noQuote => exact dif_neg noQuote
  | escaped character => rfl

theorem Literal.canonical_canonical (literal : Literal) :
    literal.canonical.canonical = literal.canonical := by
  have pieces (content : List (Piece .single)) : content.map Piece.canonical = content := by
    rw [List.map_congr_left fun piece _ => piece.canonical_of_single]
    exact List.map_id _
  exact congrArg (Literal.mk .single) (pieces _)

/-- The same leaf, a literal in single quotes. -/
def Leaf.canonical : Leaf → Leaf
  | .literal quoted => .literal quoted.canonical
  | other => other

theorem Leaf.type_canonical (stem : Leaf) (isArray : Bool) :
    stem.canonical.type isArray = stem.type isArray := by
  cases stem with
  | literal quoted => rw [Leaf.canonical, Leaf.type, Leaf.type, quoted.canonical_canonical]
  | keyword => rfl
  | whole => rfl
  | column => rfl

theorem Leaf.shown_type (stem : Leaf) (isArray : Bool) :
    shown (stem.type isArray) = marked stem.canonical.text isArray := by
  cases stem <;> rfl

/-- The term that a leaf shows as: a literal in single quotes, the marker directly behind. -/
def Leaf.tidied (stem : Leaf) (isArray : Bool) : Term :=
  .leaf stem.canonical (if isArray then some .none else none)

theorem Leaf.text_tidied (stem : Leaf) (isArray : Bool) :
    (stem.tidied isArray).text = shown (stem.type isArray) := by
  rw [stem.shown_type]
  cases isArray with
  | false => exact List.append_nil _
  | true => rfl

theorem Leaf.type_tidied (stem : Leaf) (isArray : Bool) :
    (stem.tidied isArray).type = stem.type isArray := by
  rw [← stem.type_canonical]
  cases isArray <;> rfl

/-- Terms with one space on each side of the bars between them. -/
def Expr.spaced (before : Blank) (term : Term) : List Term → Expr
  | [] => .last before term .none
  | next :: rest => .more before term .space (spaced .space next rest)

theorem Expr.terms_spaced (before : Blank) (term : Term) (rest : List Term) :
    (Expr.spaced before term rest).terms = term :: rest := by
  induction rest generalizing before term with
  | nil => rfl
  | cons next others inductionHypothesis => exact congrArg (term :: ·) (inductionHypothesis _ _)

theorem Expr.text_spaced (before : Blank) (term : Term) (rest : List Term) :
    (Expr.spaced before term rest).text
      = before.val ++ " | ".toList.intercalate ((term :: rest).map Term.text) := by
  induction rest generalizing before term with
  | nil => simp [spaced, Expr.text, Blank.none]
  | cons next others inductionHypothesis =>
      have joined : " | ".toList.intercalate ((term :: next :: others).map Term.text)
          = term.text ++ " | ".toList
            ++ " | ".toList.intercalate ((next :: others).map Term.text) :=
        List.intercalate_cons_cons
      rw [spaced, Expr.text, inductionHypothesis, joined]
      simp [Blank.space]

theorem Expr.types_eq_map (expr : Expr) : expr.types = expr.terms.map Term.type := by
  induction expr using Expr.terms.induct with
  | case1 before term after => rfl
  | case2 before term after rest inductionHypothesis =>
      rw [Expr.types, Expr.terms, List.map_cons, inductionHypothesis]

/-- Any terms make an expression in which their texts stand with ` | ` between them. -/
theorem exists_expr_of_terms {terms : List Term} (nonempty : terms ≠ []) :
    ∃ expr : Expr, expr.terms = terms
      ∧ expr.text = " | ".toList.intercalate (terms.map Term.text)
      ∧ expr.types = terms.map Term.type := by
  obtain ⟨term, rest, rfl⟩ := List.exists_cons_of_ne_nil nonempty
  have isTerms := Expr.terms_spaced .none term rest
  refine ⟨.spaced .none term rest, isTerms, Expr.text_spaced .none term rest, ?_⟩
  rw [Expr.types_eq_map, isTerms]

instance : Nonempty Term := ⟨.leaf (.keyword .string) none⟩

/-- Terms for the members of a union, with types that look like them, make an expression for the
union. -/
theorem exists_expr_of_members {View : Type} {members : List ColumnType} (nonempty : members ≠ [])
    (write : ColumnType → Text) (view : ColumnType → View)
    (printed : ∀ member ∈ members,
      ∃ term : Term, term.text = write member ∧ view term.type = view member) :
    ∃ expr : Expr, expr.text = " | ".toList.intercalate (members.map write)
      ∧ expr.types.map view = members.map view := by
  choose! pick isText isType using printed
  have picked : members.map pick ≠ [] := List.map_eq_nil_iff.not.mpr nonempty
  obtain ⟨expr, -, exprText, exprTypes⟩ := exists_expr_of_terms picked
  refine ⟨expr, ?_, ?_⟩
  · rw [exprText, List.map_map]
    exact congrArg _ (List.map_congr_left isText)
  · rw [exprTypes, List.map_map, List.map_map]
    exact List.map_congr_left isType

theorem Expr.type_of_types {expr : Expr} (several : 2 ≤ expr.types.length) :
    expr.type = alternatives expr.types := by
  cases expr with
  | last before term after => exact absurd several (by simp [Expr.types])
  | more before term after rest => rfl

/-- **A denoted type is named by its own expressions**: it shows as a term, and its name is an
expression, that denote it. -/
theorem Denoted.exists_printed {type : ColumnType} (denoted : Denoted type) :
    (∃ term : Term, term.text = shown type ∧ term.type = type)
      ∧ ∃ expr : Expr, expr.text = type.name ∧ expr.type = type := by
  -- The terms of the members make the expression of a union; the expression of a union, in
  -- parentheses, makes its term and the term of its array.
  induction denoted with
  | leaf stem isArray =>
      have isText := stem.text_tidied isArray
      have isType := stem.type_tidied isArray
      refine ⟨⟨_, isText, isType⟩, (stem.tidied isArray).alone, ?_, isType⟩
      rw [Term.text_alone, isText, name_leaf_type]
  | union members several denoted inductionHypothesis =>
      have nonempty : members ≠ [] := by
        rintro rfl
        exact absurd several (by decide)
      obtain ⟨expr, isText, isTypes⟩ := exists_expr_of_members nonempty shown id
        fun member isMember => (inductionHypothesis member isMember).1
      rw [List.map_id, List.map_id] at isTypes
      have isType : expr.type = alternatives members := by
        rw [← isTypes] at several ⊢
        exact Expr.type_of_types several
      refine ⟨⟨.group expr false, ?_, isType⟩, expr, isText, isType⟩
      rw [Term.text, isText]
      rfl
  | array name members isArray content inductionHypothesis =>
      obtain ⟨-, expr, isText, isType⟩ := inductionHypothesis
      have groupText : (Term.group expr true).text
          = shown (arrayOf (.union name members isArray)) := by
        rw [Term.text, isText]
        rfl
      have groupType : (Term.group expr true).type
          = arrayOf (.union name members isArray) := by
        rw [Term.type, isType]
      refine ⟨⟨.group expr true, groupText, groupType⟩, (Term.group expr true).alone, ?_, ?_⟩
      · rw [Term.text_alone, groupText]
        rfl
      · rw [Term.type_alone, groupType]

/-- **The display name of a type is a faithful encoding of it.**  For every expression of the
grammar the name of the type that it denotes is read as that type, and so reading the name of
what was read gives it again. -/
theorem parse_name_parse (expr : Expr) :
    parse .standard expr.type.name = expr.type
      ∧ parse .standard (parse .standard expr.text).name = parse .standard expr.text := by
  obtain ⟨-, named, isName, isType⟩ := expr.denoted.exists_printed
  have back : parse .standard expr.type.name = expr.type := by
    rw [← isName, parse_text_of_read named.read, isType]
  refine ⟨back, ?_⟩
  rw [parse_text_of_read expr.read, back]

end Grammar

end Typesheet
