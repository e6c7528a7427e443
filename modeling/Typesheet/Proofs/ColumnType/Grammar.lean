import Typesheet.ColumnType.Name
import Typesheet.Proofs.Address.Characters

/-!
Contract: the grammar of type expressions, with what an expression denotes.

    expression = term *( "|" term )
    term       = "(" expression ")" [ "[]" ] / leaf [ "[]" ]
    leaf       = keyword / namespace address / column address / literal

White space is free around terms, inside parentheses, and between a leaf and its `[]`.

Owns: the syntax trees with their layout, the text that a tree is printed to, the type that
it denotes, and the facts about printed texts that a reader relies on: none starts or ends
blank, and the scan runs through each of them and comes back to its depth.

Does not own: any reader.  The types are written down from the grammar alone.
-/

set_option autoImplicit false

namespace Typesheet.Grammar

open Expression

/-! ## Syntax -/

/-- White space, as much as there is. -/
abbrev Blank := { text : Text // Text.IsBlank text }

def Blank.none : Blank := ⟨[], Text.isBlank_nil⟩

def Blank.space : Blank := ⟨[' '], List.forall_mem_singleton.mpr rfl⟩

inductive Quote where
  | single
  | double
deriving DecidableEq, Repr

def Quote.sign : Quote → Char
  | .single => '\''
  | .double => '"'

/-- A piece of the content of a literal: a character that stands for itself, or any character
behind a backslash. -/
inductive Piece (quote : Quote) where
  | plain (character : Char) (noBackslash : character ≠ '\\') (noQuote : character ≠ quote.sign)
  | escaped (character : Char)
deriving DecidableEq

/-- A literal that ends in the quote that it starts with. -/
structure Literal where
  quote : Quote
  content : List (Piece quote)

inductive Leaf where
  | keyword (word : Keyword)
  | whole (uri : NamespaceUri)
  | column (uri : ColumnUri) (wellFormed : Address.isSelector uri.selector = true)
  | literal (quoted : Literal)

mutual

/-- A leaf with the white space in front of its array marker, if it has one, or a group. -/
inductive Term where
  | leaf (stem : Leaf) (marker : Option Blank)
  | group (content : Expr) (isArray : Bool)

/-- One term or several, each between white space. -/
inductive Expr where
  | last (before : Blank) (term : Term) (after : Blank)
  | more (before : Blank) (term : Term) (after : Blank) (rest : Expr)

end

/-! ## Printing -/

def Piece.text {quote : Quote} : Piece quote → Text
  | .plain character _ _ => [character]
  | .escaped character => ['\\', character]

def Literal.body (literal : Literal) : Text :=
  literal.content.flatMap Piece.text

def Literal.text (literal : Literal) : Text :=
  literal.quote.sign :: literal.body ++ [literal.quote.sign]

def Leaf.text : Leaf → Text
  | .keyword word => word.name
  | .whole uri => uri.text
  | .column uri _ => uri.owner.text ++ '.' :: uri.selector
  | .literal quoted => quoted.text

/-- The text of an array marker with white space in front. -/
def markerText : Option Blank → Text
  | none => []
  | some blank => blank.val ++ "[]".toList

mutual

def Term.text : Term → Text
  | .leaf stem marker => stem.text ++ markerText marker
  | .group content false => '(' :: content.text ++ ")".toList
  | .group content true => '(' :: content.text ++ ")[]".toList
termination_by structural term => term

def Expr.text : Expr → Text
  | .last before term after => before.val ++ term.text ++ after.val
  | .more before term after rest => before.val ++ term.text ++ after.val ++ '|' :: rest.text
termination_by structural expr => expr

end

def Expr.terms : Expr → List Term
  | .last _ term _ => [term]
  | .more _ term _ rest => term :: rest.terms

/-! ## Denotation -/

/-- A piece in single quotes: a bare `'` takes a backslash. -/
def Piece.canonical {quote : Quote} : Piece quote → Piece .single
  | .plain character noBackslash _ =>
      if bare : character = '\'' then .escaped '\'' else .plain character noBackslash bare
  | .escaped character => .escaped character

/-- The same literal in single quotes. -/
def Literal.canonical (literal : Literal) : Literal where
  quote := .single
  content := literal.content.map Piece.canonical

def Leaf.type (isArray : Bool) : Leaf → ColumnType
  | .keyword word => .keyword word isArray
  | .whole uri => .reference { uri := uri.text, scope := .whole, isArray }
  | .column uri wellFormed =>
      .reference
        { uri := (Leaf.column uri wellFormed).text
          scope := .column
          selector := some uri.selector
          isArray }
  | .literal quoted => .literal quoted.canonical.text isArray

/-- The array marker behind a text when the flag is set. -/
def marked (text : Text) : Bool → Text
  | false => text
  | true => text ++ "[]".toList

/-- How a type shows as an alternative: a union that is no array in parentheses, a reference
by its address. -/
def shown : ColumnType → Text
  | .keyword word isArray => marked word.name isArray
  | .literal text isArray => marked text isArray
  | .reference ref => marked ref.uri ref.isArray
  | .union name _ false => '(' :: name ++ ")".toList
  | .union name _ true => name
  | .unknown text isArray => marked text isArray

def joined (members : List ColumnType) : Text :=
  " | ".toList.intercalate (members.map shown)

/-- The union of some alternatives. -/
def alternatives (members : List ColumnType) : ColumnType :=
  .union (joined members) members false

/-- The array of a type.  The name of a union goes in parentheses. -/
def arrayOf : ColumnType → ColumnType
  | .keyword word _ => .keyword word true
  | .literal text _ => .literal text true
  | .reference ref => .reference { ref with isArray := true }
  | .union name members _ => .union ('(' :: name ++ ")[]".toList) members true
  | .unknown text _ => .unknown text true

mutual

/-- A group denotes its content. -/
def Term.type : Term → ColumnType
  | .leaf stem marker => stem.type marker.isSome
  | .group content false => content.type
  | .group content true => arrayOf content.type
termination_by structural term => term

/-- One term denotes its type, several denote a union. -/
def Expr.type : Expr → ColumnType
  | .last _ term _ => term.type
  | .more _ term _ rest => alternatives (term.type :: rest.types)
termination_by structural expr => expr

/-- The types of the terms in order. -/
def Expr.types : Expr → List ColumnType
  | .last _ term _ => [term.type]
  | .more _ term _ rest => term.type :: rest.types
termination_by structural expr => expr

end

/-- The array of a group of two terms, in its plainest layout. -/
example :
    let quoted : Literal := ⟨.double, [.plain '\'' (by decide) (by decide)]⟩
    let content : Expr :=
      .more .none (.leaf (.keyword .string) none) .space
        (.last .space (.leaf (.literal quoted) none) .none)
    (Term.group content true).text = "(string | \"'\")[]".toList
      ∧ (Term.group content true).type
        = .union "(string | '\\'')[]".toList
          [.keyword .string false, .literal "'\\''".toList false] true := by
  decide

/-! ## Printed literals -/

variable {depth bars closes : Nat}

theorem Quote.isQuote_sign (quote : Quote) : ScanState.isQuote quote.sign = true := by
  cases quote <;> rfl

theorem Quote.not_isBlank_sign (quote : Quote) : Text.isBlank quote.sign = false := by
  cases quote <;> rfl

theorem Quote.sign_ne (quote : Quote) (character : Char)
    (noQuote : ScanState.isQuote character = false) : quote.sign ≠ character := by
  rintro rfl
  rw [quote.isQuote_sign] at noQuote
  exact Bool.false_ne_true noQuote.symm

/-- The scan stays inside a literal on each of its pieces. -/
theorem Piece.passes {quote : Quote} (piece : Piece quote) :
    Passes (stopsBelow bars closes) (.literal depth quote.sign) piece.text
      (.literal depth quote.sign) := by
  cases piece with
  | plain character noBackslash noQuote =>
      exact .single rfl (by simp [ScanState.step, noBackslash, noQuote])
  | escaped character => exact .cons rfl (.single rfl rfl)

theorem Literal.passes_body (literal : Literal) :
    Passes (stopsBelow bars closes) (.literal depth literal.quote.sign) literal.body
      (.literal depth literal.quote.sign) := by
  unfold Literal.body
  induction literal.content with
  | nil => exact .nil _
  | cons piece rest inductionHypothesis => exact piece.passes.append inductionHypothesis

theorem Literal.passes (literal : Literal) :
    Passes (stopsBelow bars closes) (.code depth) literal.text (.code depth) := by
  have noBar := literal.quote.sign_ne '|' rfl
  have noClosing := literal.quote.sign_ne ')' rfl
  have noBackslash := literal.quote.sign_ne '\\' rfl
  have opening : Passes (stopsBelow bars closes) (.code depth) [literal.quote.sign]
      (.literal depth literal.quote.sign) :=
    .single (by simp [stopsBelow, noBar, noClosing])
      (by simp [ScanState.step, literal.quote.isQuote_sign])
  have closing : Passes (stopsBelow bars closes) (.literal depth literal.quote.sign)
      [literal.quote.sign] (.code depth) :=
    .single rfl (by simp [ScanState.step, noBackslash])
  exact (opening.append literal.passes_body).append closing

/-! ## Printed leaves -/

/-- A text that stands by itself in an expression and that an array marker can follow. -/
structure IsStem (text : Text) : Prop where
  tight : Text.Tight text
  passes : ∀ bars closes depth, Passes (stopsBelow bars closes) (.code depth) text (.code depth)
  noGroup : text.head? ≠ some '('
  noMarker : text.getLast? ≠ some ']'

theorem IsStem.of_isAddressChar {text : Text} (nonempty : text ≠ [])
    (letters : ∀ character ∈ text, Address.isAddressChar character = true) : IsStem text where
  tight := .of_forall nonempty fun character member =>
    Address.not_isBlank_of_isAddressChar (letters character member)
  passes := fun _ _ _ => .of_isOrdinary fun character member =>
    Address.isOrdinary_of_isAddressChar (letters character member)
  noGroup := by
    intro isFirst
    exact absurd (letters '(' (List.mem_of_mem_head? isFirst)) (by decide)
  noMarker := by
    intro isLast
    exact absurd (letters ']' (List.mem_of_mem_getLast? isLast)) (by decide)

theorem Literal.isStem (literal : Literal) : IsStem literal.text where
  tight := by
    have sign := Text.tight_singleton literal.quote.not_isBlank_sign
    exact sign.append literal.body sign
  passes := fun _ _ _ => literal.passes
  noGroup := by simpa [Literal.text] using literal.quote.sign_ne '(' rfl
  noMarker := by
    rw [Literal.text, List.getLast?_concat]
    simpa using literal.quote.sign_ne ']' rfl

theorem isAddressChar_of_mem_name {word : Keyword} {character : Char}
    (member : character ∈ word.name) : Address.isAddressChar character = true := by
  have letters : word.name.all Address.isAddressChar = true := by
    cases word <;> decide
  exact List.all_eq_true.mp letters character member

theorem isAddressChar_of_mem_column {uri : ColumnUri}
    (wellFormed : Address.isSelector uri.selector = true) {character : Char}
    (member : character ∈ uri.owner.text ++ '.' :: uri.selector) :
    Address.isAddressChar character = true := by
  rcases List.mem_append.mp member with inOwner | behind
  · exact (Address.isAddressChar_of_isNamespace uri.owner.wellFormed inOwner).1
  · rcases List.mem_cons.mp behind with rfl | inSelector
    · rfl
    · exact Address.isAddressChar_of_isSelector wellFormed inSelector

theorem Leaf.isStem (leaf : Leaf) : IsStem leaf.text := by
  cases leaf with
  | keyword word =>
      exact .of_isAddressChar (by cases word <;> decide) fun _ => isAddressChar_of_mem_name
  | whole uri =>
      have first := Address.head?_of_isNamespace uri.wellFormed
      refine .of_isAddressChar ?_ fun _ member =>
        (Address.isAddressChar_of_isNamespace uri.wellFormed member).1
      intro isEmpty
      rw [Leaf.text] at isEmpty
      simp [isEmpty] at first
  | column uri wellFormed =>
      exact .of_isAddressChar (by simp [Leaf.text]) fun _ =>
        isAddressChar_of_mem_column wellFormed
  | literal quoted => exact quoted.isStem

/-! ## Printed terms and expressions -/

theorem isOrdinary_of_mem_marker :
    ∀ character ∈ "[]".toList, isOrdinary character = true :=
  List.all_eq_true.mp rfl

theorem tight_marker : Text.Tight "[]".toList :=
  (Text.tight_singleton rfl).append [] (Text.tight_singleton rfl)

/-- A stem keeps a marker behind it from being trimmed away. -/
theorem IsStem.tight_append {text : Text} (stem : IsStem text) (marker : Option Blank) :
    Text.Tight (text ++ markerText marker) := by
  cases marker with
  | none => simpa [markerText] using stem.tight
  | some blank => simpa [markerText] using stem.tight.append blank.val tight_marker

theorem Term.tight (term : Term) : Text.Tight term.text := by
  have opening : Text.Tight ['('] := Text.tight_singleton rfl
  have closing : Text.Tight [')'] := Text.tight_singleton rfl
  match term with
  | .leaf stem marker => exact stem.isStem.tight_append marker
  | .group content false => exact opening.append content.text closing
  | .group content true =>
      exact opening.append content.text (closing.append [] tight_marker)

-- By induction on the tree, at every depth at once: a group raises the depth by one, and with
-- it the bounds below which a bar or a closing parenthesis would stop the scan.
mutual

/-- **The scan comes back from a term**: it meets no bar and no closing parenthesis outside
the groups that the term opens. -/
theorem Term.passes (depth : Nat) : ∀ term : Term,
    Passes (stopsBelow (depth + 1) (depth + 1)) (.code depth) term.text (.code depth)
  | .leaf stem none => by
      rw [Term.text, markerText, List.append_nil]
      exact stem.isStem.passes _ _ _
  | .leaf stem (some blank) =>
      (stem.isStem.passes _ _ _).append
        (.append (.of_isBlank blank.property) (.of_isOrdinary isOrdinary_of_mem_marker))
  | .group content false => (Expr.passes (depth + 1) content).group
  | .group content true => by
      have closed := (Expr.passes (depth + 1) content).group.append
        (.of_isOrdinary isOrdinary_of_mem_marker)
      simpa [Term.text] using closed

/-- The scan meets no bar of an expression that is deeper than the expression itself. -/
theorem Expr.passes (depth : Nat) : ∀ expr : Expr,
    Passes (stopsBelow depth (depth + 1)) (.code depth) expr.text (.code depth)
  | .last before term after =>
      (Term.passes depth term).between before.property after.property
  | .more before term after rest => by
      have front := (Term.passes depth term).between before.property after.property
      have bar : Passes (stopsBelow depth (depth + 1)) (.code depth) ['|'] (.code depth) :=
        .single (by simp [stopsBelow]) rfl
      exact front.append (bar.append (Expr.passes depth rest))

end

/-- A term is one token. -/
theorem Term.isTokenText (term : Term) : IsTokenText term.text :=
  (Term.passes 0 term).of_le le_rfl (Nat.zero_le 1)

/-- **The tokens of an expression** are its terms. -/
theorem Expr.texts_text : ∀ expr : Expr, Token.texts expr.text = expr.terms.map Term.text
  | .last before term after =>
      Token.texts_last term.tight term.isTokenText before.property after.property
  | .more before term after rest => by
      rw [Expr.text, Token.texts_cons term.tight term.isTokenText before.property after.property,
        Expr.texts_text rest]
      rfl

theorem Term.texts_text (term : Term) : Token.texts term.text = [term.text] := by
  have whole := Token.texts_last term.tight term.isTokenText Text.isBlank_nil Text.isBlank_nil
  rwa [List.nil_append, List.append_nil] at whole

theorem Expr.not_isBlank (expr : Expr) : ¬ Text.IsBlank expr.text := by
  intro blank
  cases expr with
  | last before term after =>
      exact term.tight.not_isBlank fun character member =>
        blank character (by simp [Expr.text, member])
  | more before term after rest =>
      exact term.tight.not_isBlank fun character member =>
        blank character (by simp [Expr.text, member])

end Typesheet.Grammar
